import AccountApi.Proof.TenancyMoves

/-!
# Every tenant has an owner

The tenant and its owner are inserted by two statements, and the memberships and the
tenant are deleted by two. Between the two statements of a request the tenant can be
without an owner. Two kinds of steps leave it so: the second statement of the request
fails, or an update saves a tenant that was deleted after it was loaded.

* `TenancyMove.owner_cases`: what one call does to the owner of a tenant.
* `OwnedInv`: without such a step, a tenant has an owner or a request is between its
  two statements on it.
* `every_tenant_has_owner`: so it has an owner when no request is in progress.
-/

namespace AccountApi

open Transition

variable {ι : Type} [DecidableEq ι] {S : Tenancy ι} {s s' : TenancyState ι} {a : TenancyStep ι} {T : Uuid}

/-- The statement of the step fails: for a technical reason, or because the creator is gone or
has become a member before the owner is saved. -/
def Tenancy.StatementFails (S : Tenancy ι) (s : TenancyState ι) (a : TenancyStep ι) : Prop :=
  a.fails = true ∨ ∃ c t, S.requests a.request = .create c ∧ s.phase a.request = .tenantSaved t ∧
    (S.world.hasUser c.creatorUserId = false ∨
      (s.db.findByTenantIdAndUserId t.primitives.id c.creatorUserId).isSome = true)

/-- The second statement of a request on an existing tenant fails. -/
def Tenancy.Abandons (S : Tenancy ι) (s : TenancyState ι) (a : TenancyStep ι) (T : Uuid) : Prop :=
  (s.phase a.request).between = some T ∧ (s.db.findTenant T).isSome = true ∧ S.StatementFails s a

/-- The step abandons or inserts again a tenant that has no owner, and no other request is
between its two statements on it. -/
def Tenancy.LeavesAlone (S : Tenancy ι) (s : TenancyState ι) (a : TenancyStep ι) : Prop :=
  ∃ T, ¬ s.db.HasOwner T ∧ (∀ j, j ≠ a.request → (s.phase j).between ≠ some T) ∧
    (S.Abandons s a T ∨ S.Reinserts s a T)

/-- A request is between its two statements on the tenant. -/
def TenancyState.Pending (s : TenancyState ι) (T : Uuid) : Prop := ∃ j, (s.phase j).between = some T

structure OwnedInv (S : Tenancy ι) (s : TenancyState ι) : Prop where
  owned : ∀ t ∈ s.db.tenants, s.db.HasOwner t.id ∨ s.Pending t.id
  unused : ∀ i, s.phase i ≠ .succeeded → ∀ m ∈ s.db.memberships, m.id ≠ S.newMembershipId i
  target : S.OnTarget s

section
variable {w : TenancyWorld} {new : NewTenancyIds} {now : Date} {db db' : TenancyDb} {fails : Bool}
  {r : TenancyRequest} {p p' : TenancyPhase}

/-- A membership a call adds has the id its request generated, and the request has succeeded. -/
theorem TenancyMove.mem_memberships (hm : TenancyMove w new now db fails db' r p p')
    (hid : ∀ x ∈ db.memberships, x.id ≠ new.membershipId) {m : TenantMembershipEntity}
    (h : m ∈ db'.memberships) :
    m ∈ db.memberships ∨ p' = .succeeded ∧ m.id = new.membershipId := by
  cases hm with
  | saveTenant c db' hs => rw [(TenancyDb.saveTenant_some hs).2.1] at h; exact Or.inl h
  | saveUpdate c t db' hs => rw [(TenancyDb.saveTenant_some hs).2.1] at h; exact Or.inl h
  | saveOwner c t db' hs =>
    rw [TenancyDb.saveMembership_insert hid hs, List.mem_append, List.mem_singleton] at h
    exact h.imp id fun h => ⟨rfl, by rw [h]⟩
  | saveMember c u db' hs =>
    rw [TenancyDb.saveMembership_insert hid hs, List.mem_append, List.mem_singleton] at h
    exact h.imp id fun h => ⟨rfl, by rw [h]⟩
  | deleteMemberships c t => exact Or.inl (List.mem_filter.1 h).1
  | deleteTenant c t => exact Or.inl (List.mem_filter.1 h).1
  | _ => exact Or.inl h

/-- **What a call does to the owner of a tenant**: the tenant has one, or the request goes on to care
for it, or the tenant was there and keeps the one it had, or it was gone and comes back. -/
theorem TenancyMove.owner_cases (hm : TenancyMove w new now db fails db' r p p')
    (hids : ∀ x ∈ db.memberships, x.id ≠ new.membershipId)
    (htarget : ∀ T t, r.tenantId = some T → p.tenant = some t → t.primitives.id = T)
    {t : TenantEntity} (ht : t ∈ db'.tenants) :
    db'.HasOwner t.id ∨ p'.between = some t.id ∨
      ((∃ x ∈ db.tenants, x.id = t.id) ∧ (db.HasOwner t.id → db'.HasOwner t.id) ∧
        (p.between = some t.id → fails = true ∨ ∃ c u, r = .create c ∧ p = .tenantSaved u ∧
          (w.hasUser c.creatorUserId = false ∨
            (db.findByTenantIdAndUserId u.primitives.id c.creatorUserId).isSome = true))) ∨
      ((db.HasOwner t.id → db'.HasOwner t.id) ∧ fails = false ∧ ∃ c u, r = .update c ∧ p = .checked u ∧
        u.primitives.id = t.id ∧ db.findTenant t.id = none ∧ w.apps.contains u.primitives.appId = true ∧
        db.findByAppIdAndSlug u.primitives.appId (c.slug.getD u.primitives.slug) = none) := by
  -- a call after which the rows are those of before keeps every owner
  have kept : ∀ {q : Prop}, t ∈ db.tenants → (p.between = some t.id → q) →
      (∃ x ∈ db.tenants, x.id = t.id) ∧ (db.HasOwner t.id → db.HasOwner t.id) ∧
        (p.between = some t.id → q) := fun ht hq => ⟨⟨t, ht, rfl⟩, id, hq⟩
  cases hm with
  | abort => exact Or.inr (Or.inr (Or.inl (kept ht fun _ => Or.inl rfl)))
  | reject _ _ e _ hnone =>
    refine Or.inr (Or.inr (Or.inl (kept ht fun hb => ?_)))
    rw [hnone] at hb; cases hb
  | ownerUnsaved c u hs =>
    refine Or.inr (Or.inr (Or.inl (kept ht fun hb => Or.inr ⟨c, u, rfl, rfl, ?_⟩)))
    -- the tenant is there, so it is the user or another membership that stands in the way
    have hid : u.primitives.id = t.id := by simpa [TenancyPhase.between] using hb
    refine (TenancyDb.saveMembership_none hids hs).resolve_left fun hnone => ?_
    exact TenancyDb.findTenant_none.1 hnone t ht hid.symm
  | saveTenant c db' hs =>
    rcases TenancyDb.mem_saveTenant hs ht with rfl | ⟨ht, -⟩
    · exact Or.inr (Or.inl rfl)
    · refine Or.inr (Or.inr (Or.inl ⟨⟨t, ht, rfl⟩, fun hown => hown.of_mem fun m hm _ => ?_, nofun⟩))
      rw [(TenancyDb.saveTenant_some hs).2.1]; exact hm
  | saveOwner c u db' hs =>
    obtain rfl := TenancyDb.saveMembership_insert hids hs
    by_cases hid : u.primitives.id = t.id
    · exact Or.inl ⟨_, List.mem_append_right _ (List.mem_singleton_self _), hid, rfl⟩
    · refine Or.inr (Or.inr (Or.inl ⟨⟨t, ht, rfl⟩, ?_, fun hb => ?_⟩))
      · exact fun hown => hown.of_mem fun m hm _ => List.mem_append_left _ hm
      · exact absurd (by simpa [TenancyPhase.between] using hb) hid
  | saveMember c u db' hs =>
    obtain rfl := TenancyDb.saveMembership_insert hids hs
    refine Or.inr (Or.inr (Or.inl ⟨⟨t, ht, rfl⟩, ?_, nofun⟩))
    exact fun hown => hown.of_mem fun m hm _ => List.mem_append_left _ hm
  | saveUpdate c u db' hs =>
    have hkeep : db.HasOwner t.id → db'.HasOwner t.id := fun hown =>
      hown.of_mem fun m hm _ => by rw [(TenancyDb.saveTenant_some hs).2.1]; exact hm
    rcases TenancyDb.mem_saveTenant hs ht with rfl | ⟨ht, -⟩
    · cases hrow : db.findTenant (u.update c.name c.slug now).primitives.id with
      | some x => exact Or.inr (Or.inr (Or.inl ⟨⟨x, TenancyDb.findTenant_some hrow⟩, hkeep, nofun⟩))
      | none =>
        have hins := (TenancyDb.saveTenant_isSome_iff hrow).1 (by rw [hs]; rfl)
        rw [TenantAggregate.update_primitives] at hins hkeep ⊢
        exact Or.inr (Or.inr (Or.inr ⟨hkeep, rfl, c, u, rfl, rfl, rfl, rfl, hins⟩))
    · exact Or.inr (Or.inr (Or.inl ⟨⟨t, ht, rfl⟩, hkeep, nofun⟩))
  | deleteMemberships c u =>
    by_cases hid : t.id = c.tenantId
    · -- the owner goes, and the request goes on to delete the tenant
      refine Or.inr (Or.inl ?_)
      rw [TenancyPhase.between, htarget c.tenantId u rfl rfl, hid]
    · refine Or.inr (Or.inr (Or.inl ⟨⟨t, ht, rfl⟩, fun hown => hown.of_mem fun m hm hmt => ?_, nofun⟩))
      exact List.mem_filter.2 ⟨hm, by simpa [hmt] using hid⟩
  | deleteTenant c u =>
    obtain ⟨ht, hne⟩ := TenancyDb.mem_deleteTenant.1 ht
    refine Or.inr (Or.inr (Or.inl ⟨⟨t, ht, rfl⟩, fun hown => hown.of_mem fun m hm hmt => ?_, fun hb => ?_⟩))
    · exact List.mem_filter.2 ⟨hm, by simpa [hmt] using hne⟩
    · exact absurd (by simpa [TenancyPhase.between] using hb.symm) hne
  | _ => exact Or.inr (Or.inr (Or.inl (kept ht nofun)))

end

/-- **The owner or the pending request of a tenant** survives a step that leaves none alone. -/
theorem owned_step (hI : OwnedInv S s) (hok : ¬ S.LeavesAlone s a) (h : S.step s a = some s') :
    ∀ t ∈ s'.db.tenants, s'.db.HasOwner t.id ∨ s'.Pending t.id := by
  obtain ⟨hm, hother⟩ := tenancy_step h
  intro t ht
  -- when the step abandons or brings back a tenant without an owner, another request cares for it
  have relieved : ¬ s.db.HasOwner t.id → S.Abandons s a t.id ∨ S.Reinserts s a t.id → s'.Pending t.id := by
    intro hown hbad
    by_contra hpend
    refine hok ⟨t.id, hown, fun j hj hb => hpend ⟨j, ?_⟩, hbad⟩
    rw [hother j hj]; exact hb
  rcases hm.owner_cases (hI.unused a.request hm.ne_succeeded) (hI.target a.request) ht with
    hown | hmine | ⟨⟨x, hx, hid⟩, hkeep, hfail⟩ | ⟨hkeep, hf, c, u, hr, hq, hid, hrow, hfree⟩
  · exact Or.inl hown
  · exact Or.inr ⟨a.request, hmine⟩
  · by_cases hown : s.db.HasOwner t.id
    · exact Or.inl (hkeep hown)
    obtain ⟨j, hj⟩ := (hI.owned x hx).resolve_left (by rw [hid]; exact hown)
    rw [hid] at hj
    by_cases hja : j = a.request
    · subst hja
      have hrow : (s.db.findTenant t.id).isSome = true := by
        rw [Option.isSome_iff_ne_none]
        exact fun hnone => TenancyDb.findTenant_none.1 hnone x hx hid
      exact Or.inr (relieved hown (Or.inl ⟨hj, hrow, hfail hj⟩))
    · exact Or.inr ⟨j, by rw [hother j hja]; exact hj⟩
  · by_cases hown : s.db.HasOwner t.id
    · exact Or.inl (hkeep hown)
    · exact Or.inr (relieved hown (Or.inr ⟨hf, c, u, hr, hq, hid, hrow, hfree⟩))

theorem ownedInv_step (hI : OwnedInv S s) (hok : ¬ S.LeavesAlone s a) (h : S.step s a = some s') :
    OwnedInv S s' where
  owned := owned_step hI hok h
  target := onTarget_step hI.target h
  unused := by
    obtain ⟨hm, hother⟩ := tenancy_step h
    have hids := hI.unused a.request hm.ne_succeeded
    intro j hj m hmem hid
    by_cases hji : j = a.request
    · subst hji
      rcases hm.mem_memberships hids hmem with hold | ⟨hdone, -⟩
      · exact hids m hold hid
      · exact hj hdone
    · rw [hother j hji] at hj
      rcases hm.mem_memberships hids hmem with hold | ⟨-, hnew⟩
      · exact hI.unused j hj m hold hid
      · exact hji (S.newMembershipId.injective (hid.symm.trans hnew))

theorem between_inProgress {p : TenancyPhase} (h : p.between = some T) : p.inProgress = true := by
  cases p <;> first | rfl | cases h

/-- **Every tenant has an owner** whenever no request is in progress, on every run none of whose
steps leaves a tenant alone. -/
theorem every_tenant_has_owner {db : TenancyDb} {as : List (TenancyStep ι)}
    (hdb : ∀ t ∈ db.tenants, db.HasOwner t.id)
    (hids : ∀ i, ∀ m ∈ db.memberships, m.id ≠ S.newMembershipId i)
    (h : exec S.step (Tenancy.start db) as = some s)
    (hok : Along S.step (fun s a => ¬ S.LeavesAlone s a) (Tenancy.start db) as)
    (hidle : ∀ i, (s.phase i).inProgress = false) : ∀ t ∈ s.db.tenants, s.db.HasOwner t.id := by
  have hstart : OwnedInv S (Tenancy.start db) :=
    ⟨fun t ht => Or.inl (hdb t ht), fun i _ => hids i, onTarget_start db⟩
  have hI : OwnedInv S s := invariant_along (fun _ _ _ hI hok h => ownedInv_step hI hok h) hstart hok h
  intro t ht
  refine (hI.owned t ht).resolve_right ?_
  rintro ⟨j, hj⟩
  have hbusy := between_inProgress hj
  rw [hidle j] at hbusy
  cases hbusy

/-- Jane creates two tenants; she deletes the first while John is added to the second. -/
def twoTenants : Tenancy (Fin 4) :=
  Tenancy.small ![.create ⟨1, "Acme", "acme", 11⟩, .create ⟨1, "Globex", "globex", 11⟩,
    .delete ⟨100, 11⟩, .addMember ⟨101, "john@example.com", .member⟩]

theorem twoTenants_creator {i : Fin 4} {c : CreateTenantCommand} (h : twoTenants.requests i = .create c) :
    c.creatorUserId = 11 := by
  match i, h with
  | 0, h => cases h; rfl
  | 1, h => cases h; rfl
  | 2, h | 3, h => cases h

theorem twoTenants_no_update {i : Fin 4} {c : UpdateTenantCommand} : twoTenants.requests i ≠ .update c := by
  match i with
  | 0 | 1 | 2 | 3 => nofun

/-- All calls are interleaved, and the INSERT of John's membership fails. -/
theorem every_tenant_has_owner_two : ∃ as s,
    exec twoTenants.step (Tenancy.start ⟨[], []⟩) as = some s ∧ s.db.tenants ≠ [] ∧
      ∀ t ∈ s.db.tenants, s.db.HasOwner t.id := by
  set as : List (TenancyStep (Fin 4)) :=
    ([0, 1, 0, 1, 0, 0, 2, 1, 3, 2, 2, 1, 3, 3, 2].map fun i => ⟨i, false, .millis 1⟩) ++
      [⟨3, true, .millis 1⟩]
  obtain ⟨s, hs, hidle, hne⟩ : ∃ s, exec twoTenants.step (Tenancy.start ⟨[], []⟩) as = some s ∧
      (∀ i, (s.phase i).inProgress = false) ∧ s.db.tenants ≠ [] := ⟨_, rfl, by decide, by decide⟩
  -- every second statement succeeds: Jane is not a member yet when she is saved as the owner
  have hok : Along twoTenants.step (fun s a => ¬ twoTenants.LeavesAlone s a) (Tenancy.start ⟨[], []⟩)
      as := by
    refine along_of_check (fun s a => (s.phase a.request).between.all fun T =>
      !a.fails && (a.request = 2 || (s.db.findByTenantIdAndUserId T 11).isNone)) ?_ (by decide)
    rintro s a hcheck ⟨T, -, -, ⟨hb, -, hfail⟩ | ⟨-, c, t, hr, -⟩⟩
    · rw [hb, Option.all_some, Bool.and_eq_true, Bool.or_eq_true] at hcheck
      obtain ⟨hf, hcheck⟩ := hcheck
      rcases hfail with hfail | ⟨c, t, hr, hp, huser | hmember⟩
      · rw [hfail] at hf; cases hf
      · rw [twoTenants_creator hr] at huser; cases huser
      · have hT : t.primitives.id = T := by simpa [hp, TenancyPhase.between] using hb
        rw [twoTenants_creator hr, hT] at hmember
        rcases hcheck with h2 | hnone
        · rw [of_decide_eq_true h2] at hr; cases hr
        · rw [Option.isNone_iff_eq_none.1 hnone] at hmember; cases hmember
    · exact twoTenants_no_update hr
  exact ⟨as, s, hs, hne, every_tenant_has_owner (by simp) (by simp) hs hok hidle⟩

/-- **A tenant without an owner**: the INSERT of the owner fails after that of the tenant. -/
theorem ownerless_after_failed_insert : ∃ s,
    exec (Tenancy.small ![.create ⟨1, "Acme", "acme", 11⟩]).step (Tenancy.start ⟨[], []⟩)
        [⟨0, false, .millis 1⟩, ⟨0, false, .millis 1⟩, ⟨0, false, .millis 1⟩, ⟨0, true, .millis 1⟩] =
      some s ∧ (∀ i, (s.phase i).inProgress = false) ∧ ∃ t ∈ s.db.tenants, ¬ s.db.HasOwner t.id :=
  ⟨_, rfl, by decide, by decide⟩

end AccountApi

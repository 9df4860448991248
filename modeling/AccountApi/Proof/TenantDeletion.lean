import AccountApi.Proof.TenancyMoves

/-!
# Deletion of a tenant

An update loads the tenant, and saves it some calls later. A tenant that is deleted
in between is inserted again by the save (`Tenancy.Reinserts`).

* `DeletionInv`: the tenant an update holds has its row or was deleted.
* `deletion_final_iff`: so the deletions of a run are final if and only if none of its
  steps inserts a tenant again.
-/

namespace AccountApi

open Transition

variable {ι : Type} [DecidableEq ι] {S : Tenancy ι} {s s' : TenancyState ι} {a : TenancyStep ι} {T : Uuid}

section
variable {w : TenancyWorld} {new : NewTenancyIds} {now : Date} {db db' : TenancyDb} {fails : Bool}
  {r : TenancyRequest} {p p' : TenancyPhase}

theorem findTenant_deleteTenant (id : Uuid) :
    (db.deleteTenant id).findTenant T = if T = id then none else db.findTenant T :=
  Table.find_delete id T

/-- Only the deletion of a tenant removes its row. -/
theorem TenancyMove.row_kept (hm : TenancyMove w new now db fails db' r p p')
    (htarget : ∀ T t, r.tenantId = some T → p.tenant = some t → t.primitives.id = T)
    (h : (db.findTenant T).isSome = true) :
    (db'.findTenant T).isSome = true ∨ ∃ c, r = .delete c ∧ c.tenantId = T ∧ p' = .succeeded := by
  cases hm with
  | saveTenant c db' hs =>
    rw [TenancyDb.findTenant_saveTenant hs]
    split
    · exact Or.inl rfl
    · exact Or.inl h
  | saveUpdate c t db' hs =>
    rw [TenancyDb.findTenant_saveTenant hs]
    split
    · exact Or.inl rfl
    · exact Or.inl h
  | saveOwner c t db' hs => rw [TenancyDb.findTenant_saveMembership hs]; exact Or.inl h
  | saveMember c u db' hs => rw [TenancyDb.findTenant_saveMembership hs]; exact Or.inl h
  | deleteMemberships c t => exact Or.inl h
  | deleteTenant c t =>
    -- the row that goes is the one the command names
    have ht := htarget c.tenantId t rfl rfl
    rw [findTenant_deleteTenant]
    split
    case isTrue hid => exact Or.inr ⟨c, rfl, by rw [hid, ht], rfl⟩
    case isFalse => exact Or.inl h
  | _ => exact Or.inl h

/-- Only a save of a tenant adds its row. -/
theorem TenancyMove.row_added (hm : TenancyMove w new now db fails db' r p p')
    (hcreate : ∀ c, r ≠ .create c) (h : db.findTenant T = none) (h' : (db'.findTenant T).isSome = true) :
    ∃ c t, r = .update c ∧ p = .checked t ∧ fails = false ∧ t.primitives.id = T ∧
      (db.saveTenant w (t.update c.name c.slug now).primitives).isSome = true := by
  have habs : (db.findTenant T).isSome ≠ true := by rw [h]; simp
  cases hm with
  | saveTenant c => exact absurd rfl (hcreate c)
  | saveOwner c => exact absurd rfl (hcreate c)
  | saveUpdate c t db' hs =>
    refine ⟨c, t, rfl, rfl, rfl, ?_, by rw [hs]; rfl⟩
    by_contra hid
    have hne : T ≠ (t.update c.name c.slug now).primitives.id := by
      rw [TenantAggregate.update_primitives]; exact Ne.symm hid
    rw [TenancyDb.findTenant_saveTenant hs, if_neg hne] at h'
    exact habs h'
  | saveMember c u db' hs => rw [TenancyDb.findTenant_saveMembership hs] at h'; exact absurd h' habs
  | deleteTenant c t =>
    rw [findTenant_deleteTenant] at h'
    split at h'
    · cases h'
    · exact absurd h' habs
  | _ => exact absurd h' habs

end

/-- A deletion of the tenant has completed. -/
def Tenancy.Deleted (S : Tenancy ι) (s : TenancyState ι) (T : Uuid) : Prop :=
  ∃ i c, S.requests i = .delete c ∧ c.tenantId = T ∧ s.phase i = .succeeded

/-- No tenant whose deletion has completed has a row. -/
def Tenancy.DeletionsHold (S : Tenancy ι) (s : TenancyState ι) : Prop :=
  ∀ T, S.Deleted s T → s.db.findTenant T = none

structure DeletionInv (S : Tenancy ι) (s : TenancyState ι) : Prop where
  target : S.OnTarget s
  loaded : ∀ i c t, S.requests i = .update c → (s.phase i).tenant = some t →
    (s.db.findTenant t.primitives.id).isSome = true ∨ S.Deleted s t.primitives.id

theorem Tenancy.Deleted.step (hd : S.Deleted s T) (h : S.step s a = some s') : S.Deleted s' T := by
  obtain ⟨hm, hother⟩ := tenancy_step h
  obtain ⟨i, c, hr, hT, hi⟩ := hd
  have hne : i ≠ a.request := by
    rintro rfl
    exact hm.ne_succeeded hi
  exact ⟨i, c, hr, hT, by rw [hother i hne]; exact hi⟩

/-- A tenant keeps its row until its deletion completes. -/
theorem row_or_deleted_step (htarget : S.OnTarget s) (h : S.step s a = some s')
    (hT : (s.db.findTenant T).isSome = true ∨ S.Deleted s T) :
    (s'.db.findTenant T).isSome = true ∨ S.Deleted s' T := by
  rcases hT with hrow | hd
  · have hm := (tenancy_step h).1
    refine (hm.row_kept (htarget a.request) hrow).imp id ?_
    rintro ⟨c, hr, hcT, hp⟩
    exact ⟨a.request, c, hr, hcT, hp⟩
  · exact Or.inr (hd.step h)

theorem deletionInv_step (hI : DeletionInv S s) (h : S.step s a = some s') : DeletionInv S s' where
  target := onTarget_step hI.target h
  loaded := by
    intro i c t hr ht
    have hkeep := row_or_deleted_step (T := t.primitives.id) hI.target h
    obtain ⟨hm, hother⟩ := tenancy_step h
    by_cases hi : i = a.request
    case neg =>
      rw [hother i hi] at ht
      exact hkeep (hI.loaded i c t hr ht)
    subst hi
    have hold := hI.loaded a.request c t hr
    have hfound : ∀ x, s.db.findTenant c.tenantId = some x →
        (s.db.findTenant x.id).isSome = true := fun x hx => by
      rw [(TenancyDb.findTenant_some hx).2, hx]; rfl
    refine hkeep ?_
    rw [hr] at hm
    generalize s.phase a.request = q at hm hold
    generalize s'.phase a.request = p at hm ht
    generalize s'.db = db', a.fails = fails at hm
    cases hm with
    | loadUnchecked _ x hx => cases ht; exact Or.inl (hfound x hx)
    | loadChecked _ x hx => cases ht; exact Or.inl (hfound x hx)
    | checkSlug _ x => cases ht; exact hold rfl
    | _ => cases ht

/-- The step that inserts a tenant again leaves it with a row. -/
theorem reinserts_row (hre : S.Reinserts s a T) (h : S.step s a = some s') :
    (s'.db.findTenant T).isSome = true := by
  obtain ⟨hf, c, t, hr, hp, rfl, hrow, hfree⟩ := hre
  set saved := (t.update c.name c.slug a.now).primitives with hsaved
  have hid : saved.id = t.primitives.id := by rw [hsaved, TenantAggregate.update_primitives]
  have hsome : (s.db.saveTenant S.world saved).isSome = true := by
    rw [TenancyDb.saveTenant_isSome_iff (by rw [hid]; exact hrow), hsaved,
      TenantAggregate.update_primitives]
    exact hfree
  obtain ⟨db', hdb⟩ := Option.isSome_iff_exists.1 hsome
  have hnext : S.next s a.request a.now = some (db', .succeeded) := by
    rw [Tenancy.next, hr, hp]
    simp only [TenancyDb.advance, ← hsaved, hdb]
  rw [Tenancy.step, hnext] at h
  simp only [hf, Option.map_some, Option.some.injEq] at h
  rw [← h]
  simp [TenancyDb.findTenant_saveTenant hdb, hid]

/-- **A step keeps the deletions final** if and only if it does not insert a tenant again. -/
theorem deletionsHold_step_iff (hreq : ∀ i c, S.requests i ≠ .create c) (hI : DeletionInv S s)
    (hD : S.DeletionsHold s) (h : S.step s a = some s') :
    S.DeletionsHold s' ↔ ∀ T, ¬ S.Reinserts s a T := by
  constructor
  · intro hD' T hre
    have hrow := reinserts_row hre h
    obtain ⟨-, c, t, hr, hp, rfl, hnone, -⟩ := hre
    have hd : S.Deleted s t.primitives.id := by
      refine (hI.loaded a.request c t hr (by rw [hp]; rfl)).resolve_left fun hold => ?_
      rw [hnone] at hold; cases hold
    rw [hD' _ (hd.step h)] at hrow
    cases hrow
  · intro hno T hd'
    obtain ⟨hm, hother⟩ := tenancy_step h
    by_cases hd : S.Deleted s T
    · -- the row was gone, and only a save of an update could have added it
      have hnone := hD T hd
      rw [← Option.not_isSome_iff_eq_none]
      intro hrow
      obtain ⟨c, t, hr, hq, hf, rfl, hsome⟩ := hm.row_added (hreq a.request) hnone hrow
      rw [TenancyDb.saveTenant_isSome_iff, TenantAggregate.update_primitives] at hsome
      · exact hno _ ⟨hf, c, t, hr, hq, rfl, hnone, hsome⟩
      · rw [TenantAggregate.update_primitives]; exact hnone
    · -- the deletion completes with this step
      obtain ⟨i, c, hr, rfl, hi⟩ := hd'
      have hia : i = a.request := by
        by_contra hne
        rw [hother i hne] at hi
        exact hd ⟨i, c, hr, rfl, hi⟩
      subst hia
      have htarget := hI.target a.request c.tenantId
      rw [hr, hi] at hm
      rw [hr] at htarget
      generalize s.phase a.request = q at hm htarget
      generalize s'.db = db', a.fails = fails at hm ⊢
      cases hm with
      | deleteTenant _ t =>
        have ht := htarget t rfl rfl
        rw [findTenant_deleteTenant, if_pos ht.symm]

/-- **Deletions are final on a run of updates, additions and deletions if and only if** none of
its steps saves an update whose tenant was deleted after it was loaded. A request that has
succeeded stays so: in every state of such a run, and so in every later one, a tenant whose
deletion has completed has no row. -/
theorem deletion_final_iff {db : TenancyDb} {as : List (TenancyStep ι)}
    (hreq : ∀ i c, S.requests i ≠ .create c) (h : exec S.step (Tenancy.start db) as = some s) :
    (∀ bs, bs <+: as → ∀ u, exec S.step (Tenancy.start db) bs = some u → S.DeletionsHold u) ↔
      Along S.step (fun s a => ∀ T, ¬ S.Reinserts s a T) (Tenancy.start db) as := by
  have hstart : DeletionInv S (Tenancy.start db) :=
    ⟨onTarget_start db, fun i c t _ ht => by cases ht⟩
  have hhold : S.DeletionsHold (Tenancy.start db) := by
    rintro T ⟨i, c, -, -, hi⟩
    cases hi
  rw [← always_iff_prefix]
  exact always_iff_along (fun _ _ _ hI h => deletionInv_step hI h)
    (fun _ _ _ hI hD h => deletionsHold_step_iff hreq hI hD h) hstart hhold h

/-- An update, an addition and a deletion of tenant 7. -/
def oneDeletion : Tenancy (Fin 3) :=
  Tenancy.small ![.update ⟨7, some "Acme Inc", none⟩, .addMember ⟨7, "john@example.com", .admin⟩,
    .delete ⟨7, 11⟩]

theorem deletion_final_early_save : ∃ s,
    exec oneDeletion.step (Tenancy.start .small)
        ([2, 0, 1, 2, 1, 0, 2, 1, 1, 2].map fun i => ⟨i, false, .millis 1⟩) = some s ∧
      oneDeletion.Deleted s 7 ∧ oneDeletion.DeletionsHold s := by
  have hreq : ∀ i c, oneDeletion.requests i ≠ .create c := fun i c =>
    match i with
    | 0 | 1 | 2 => nofun
  obtain ⟨s, hs, h2⟩ : ∃ s, exec oneDeletion.step (Tenancy.start .small)
      ([2, 0, 1, 2, 1, 0, 2, 1, 1, 2].map fun i => ⟨i, false, .millis 1⟩) = some s ∧
      s.phase 2 = .succeeded := ⟨_, rfl, by decide⟩
  refine ⟨s, hs, ⟨2, _, rfl, rfl, h2⟩, (deletion_final_iff hreq hs).2 ?_ _ List.prefix_rfl s hs⟩
  -- the update is saved while its row is there
  refine along_of_check (fun s a => (s.phase a.request).tenant.all fun t =>
    a.request = 2 || (s.db.findTenant t.primitives.id).isSome) ?_ (by decide)
  rintro s a hcheck T ⟨-, c, t, hr, hp, rfl, hnone, -⟩
  rw [hp, TenancyPhase.tenant, Option.all_some, hnone, Bool.or_eq_true] at hcheck
  rcases hcheck with h2 | hsome
  · rw [of_decide_eq_true h2] at hr; cases hr
  · cases hsome

/-- **A tenant that comes back**: the update loads it, the deletion completes, and the update
saves it. No statement fails. -/
theorem deleted_tenant_returns : ∃ s,
    exec oneDeletion.step (Tenancy.start .small)
        ([0, 2, 2, 2, 2, 0].map fun i => ⟨i, false, .millis 1⟩) = some s ∧
      oneDeletion.Deleted s 7 ∧ (s.db.findTenant 7).isSome = true :=
  ⟨_, rfl, ⟨2, _, rfl, rfl, by decide⟩, by decide⟩

end AccountApi

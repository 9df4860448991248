import AccountApi.Spec.Tenancy

/-!
# What one step of a tenancy request can do

`TenancyMove` lists the calls of the four handlers, one constructor for each call
that goes on and three for the ways to fail (`tenancy_step`). The statements
themselves have one lemma each: what `saveTenant` and `saveMembership` leave in
the tables when they succeed. `execute_outcome` is the same for a request whose calls
follow one another with nothing in between, and `execute_run` finds its run in the
system.
-/

namespace AccountApi

open Transition

namespace TenancyDb

variable {w : TenancyWorld} {db db' : TenancyDb} {t r : TenantEntity} {m : TenantMembershipEntity}

/-- The tenant has a membership with role `OWNER`. -/
def HasOwner (db : TenancyDb) (tenantId : Uuid) : Prop :=
  ∃ m ∈ db.memberships, m.tenantId = tenantId ∧ m.isOwner

instance (tenantId : Uuid) : Decidable (db.HasOwner tenantId) := by
  unfold HasOwner; infer_instance

theorem findTenant_some {id : Uuid} (h : db.findTenant id = some t) : t ∈ db.tenants ∧ t.id = id :=
  Table.find_key_some h

theorem findTenant_none {id : Uuid} : db.findTenant id = none ↔ ∀ t ∈ db.tenants, t.id ≠ id := by
  simp [findTenant]

/-- A tenant that is saved is upserted in its table, and the memberships stay. -/
theorem saveTenant_some (h : db.saveTenant w t = some db') :
    w.apps.contains t.appId = true ∧ db'.memberships = db.memberships ∧
      Table.upsert (·.id) (fun x t => x.appId = t.appId && x.slug = t.slug) db.tenants t =
        some db'.tenants := by
  unfold saveTenant at h
  split at h
  case isFalse => cases h
  rename_i happ
  obtain ⟨rows, hup, rfl⟩ := Option.map_eq_some_iff.1 h
  exact ⟨happ, rfl, hup⟩

theorem mem_saveTenant (h : db.saveTenant w t = some db') (hr : r ∈ db'.tenants) :
    r = t ∨ r ∈ db.tenants ∧ r.id ≠ t.id :=
  Table.mem_upsert (saveTenant_some h).2.2 hr

/-- After a save the row is there, and the other rows are as before. -/
theorem findTenant_saveTenant (h : db.saveTenant w t = some db') (id : Uuid) :
    db'.findTenant id = if id = t.id then some t else db.findTenant id :=
  Table.find_upsert (saveTenant_some h).2.2 id

/-- A tenant without a row is inserted unless its app is gone or the slug is taken. -/
theorem saveTenant_isSome_iff (hnone : db.findTenant t.id = none) :
    (db.saveTenant w t).isSome = true ↔
      w.apps.contains t.appId = true ∧ db.findByAppIdAndSlug t.appId t.slug = none := by
  have hids := findTenant_none.1 hnone
  constructor
  · intro h
    obtain ⟨db', h⟩ := Option.isSome_iff_exists.1 h
    obtain ⟨happ, -, hup⟩ := saveTenant_some h
    refine ⟨happ, List.find?_eq_none.2 fun x hx => ?_⟩
    rw [(Table.upsert_some hup).1 x hx (hids x hx)]
    simp
  · rintro ⟨happ, hslug⟩
    have hclash : ∀ x ∈ db.tenants, (x.appId = t.appId && x.slug = t.slug) = false := fun x hx => by
      simpa using List.find?_eq_none.1 hslug x hx
    rw [saveTenant, if_pos happ, Table.upsert_insert hids hclash]
    rfl

/-- A membership that is saved refers to a tenant and a user, and is upserted in its table. -/
theorem saveMembership_some (h : db.saveMembership w m = some db') :
    (db.findTenant m.tenantId).isSome = true ∧ db'.tenants = db.tenants ∧
      Table.upsert (·.id) (fun x m => x.tenantId = m.tenantId && x.userId = m.userId) db.memberships m =
        some db'.memberships := by
  unfold saveMembership at h
  split at h
  case isFalse => cases h
  rename_i hrefs
  obtain ⟨rows, hup, rfl⟩ := Option.map_eq_some_iff.1 h
  exact ⟨(Bool.and_eq_true _ _ ▸ hrefs).1, rfl, hup⟩

theorem findTenant_saveMembership (h : db.saveMembership w m = some db') (id : Uuid) :
    db'.findTenant id = db.findTenant id := by
  rw [findTenant, (saveMembership_some h).2.1]
  rfl

/-- The memberships after a save with a new id: the new one is added. -/
theorem saveMembership_insert (hid : ∀ x ∈ db.memberships, x.id ≠ m.id)
    (h : db.saveMembership w m = some db') :
    db' = { db with memberships := db.memberships ++ [m] } := by
  obtain ⟨-, htenants, hup⟩ := saveMembership_some h
  obtain ⟨-, ⟨-, hrows⟩ | ⟨⟨x, hx, hxid⟩, -⟩⟩ := Table.upsert_some hup
  · rw [← htenants, ← hrows]
  · exact absurd hxid (hid x hx)

/-- A membership with a new id is not saved when its tenant or its user is gone, or the user is a
member already. -/
theorem saveMembership_none (hid : ∀ x ∈ db.memberships, x.id ≠ m.id)
    (h : db.saveMembership w m = none) :
    db.findTenant m.tenantId = none ∨ w.hasUser m.userId = false ∨
      (db.findByTenantIdAndUserId m.tenantId m.userId).isSome = true := by
  by_contra hcon
  push Not at hcon
  obtain ⟨htenant, huser, hmember⟩ := hcon
  have hclash : ∀ x ∈ db.memberships, (x.tenantId = m.tenantId && x.userId = m.userId) = false := by
    intro x hx
    have := List.find?_eq_none.1 (Option.not_isSome_iff_eq_none.1 hmember) x hx
    simpa using this
  have hrefs : ((db.findTenant m.tenantId).isSome && w.hasUser m.userId) = true := by
    simp [Option.isSome_iff_ne_none, htenant, huser]
  rw [saveMembership, if_pos hrefs, Table.upsert_insert hid hclash] at h
  cases h

theorem mem_deleteTenant {id : Uuid} : t ∈ (db.deleteTenant id).tenants ↔ t ∈ db.tenants ∧ t.id ≠ id := by
  simp [deleteTenant]

theorem HasOwner.of_mem {id : Uuid} (h : db.HasOwner id)
    (hsub : ∀ m ∈ db.memberships, m.tenantId = id → m ∈ db'.memberships) : db'.HasOwner id := by
  obtain ⟨m, hm, hid, hown⟩ := h
  exact ⟨m, hsub m hm hid, hid, hown⟩

end TenancyDb

@[simp] theorem TenantEntity.toAggregate_primitives (t : TenantEntity) : t.toAggregate.primitives = t := rfl

@[simp] theorem TenantAggregate.delete_primitives (t : TenantAggregate) :
    t.delete.primitives = t.primitives := rfl

@[simp] theorem CreateTenantCommand.tenant_primitives (c : CreateTenantCommand) (id : Uuid) (now : Date) :
    (c.tenant id now).primitives = ⟨id, c.appId, c.name, c.slug, now, now⟩ := rfl

/-- The columns of an updated tenant: those supplied, and the others as they were. -/
theorem TenantAggregate.update_primitives (t : TenantAggregate) (name slug : Option String) (now : Date) :
    (t.update name slug now).primitives =
      { t.primitives with
        name := name.getD t.primitives.name
        slug := slug.getD t.primitives.slug
        updatedAt :=
          if name.getD t.primitives.name = t.primitives.name ∧
            slug.getD t.primitives.slug = t.primitives.slug then t.primitives.updatedAt else now } := by
  have hname : ∀ n, (t.changeName n now).primitives =
      { t.primitives with
        name := n, updatedAt := if n = t.primitives.name then t.primitives.updatedAt else now } := by
    intro n
    unfold changeName
    by_cases hn : t.primitives.name = n
    · subst hn; simp
    · simp [hn, Ne.symm hn, touch, apply]
  have hslug : ∀ (u : TenantAggregate) s, (u.changeSlug s now).primitives =
      { u.primitives with
        slug := s, updatedAt := if s = u.primitives.slug then u.primitives.updatedAt else now } := by
    intro u s
    unfold changeSlug
    by_cases hs : u.primitives.slug = s
    · subst hs; simp
    · simp [hs, Ne.symm hs, touch, apply]
  cases name with
  | none =>
    cases slug with
    | none => simp [update, apply]
    | some s => simp [update, apply, hslug]
  | some n =>
    cases slug with
    | none => simp [update, apply, hname]
    | some s =>
      by_cases hs : s = t.primitives.slug <;> by_cases hn : n = t.primitives.name <;>
        simp [update, apply, hslug, hname, hs, hn]

/-- The tenant of a request that has performed the first of its two statements. -/
def TenancyPhase.between : TenancyPhase → Option Uuid
  | tenantSaved t | membershipsDeleted t => some t.primitives.id
  | _ => none

/-- The calls of one request; the first index tells whether the statement fails. -/
inductive TenancyMove (w : TenancyWorld) (new : NewTenancyIds) (now : Date) (db : TenancyDb) :
    Bool → TenancyDb → TenancyRequest → TenancyPhase → TenancyPhase → Prop
  | abort (r) (p) : p ≠ .succeeded → TenancyMove w new now db true db r p (.failed .queryFailed)
  | reject (r) (p) (e) : p ≠ .succeeded → p.between = none →
      TenancyMove w new now db false db r p (.failed e)
  | ownerUnsaved (c) (t) : db.saveMembership w
        ⟨new.membershipId, t.primitives.id, c.creatorUserId, .owner, now, now⟩ = none →
      TenancyMove w new now db false db (.create c) (.tenantSaved t) (.failed .queryFailed)
  | appExists (c) : TenancyMove w new now db false db (.create c) .received .appExists
  | slugAvailable (c) : db.findByAppIdAndSlug c.appId c.slug = none →
      TenancyMove w new now db false db (.create c) .appExists .slugAvailable
  | saveTenant (c) (db') : db.saveTenant w (c.tenant new.tenantId now).primitives = some db' →
      TenancyMove w new now db false db' (.create c) .slugAvailable
        (.tenantSaved (c.tenant new.tenantId now))
  | saveOwner (c) (t) (db') : db.saveMembership w
        ⟨new.membershipId, t.primitives.id, c.creatorUserId, .owner, now, now⟩ = some db' →
      TenancyMove w new now db false db' (.create c) (.tenantSaved t) .succeeded
  | loadUnchecked (c) (t) : db.findTenant c.tenantId = some t → (∃ s, c.slug = some s ∧ s ≠ t.slug) →
      TenancyMove w new now db false db (.update c) .received (.slugUnchecked t.toAggregate)
  | loadChecked (c) (t) : db.findTenant c.tenantId = some t → c.slug.getD t.slug = t.slug →
      TenancyMove w new now db false db (.update c) .received (.checked t.toAggregate)
  | checkSlug (c) (t) :
      db.findByAppIdAndSlug t.primitives.appId (c.slug.getD t.primitives.slug) = none →
      TenancyMove w new now db false db (.update c) (.slugUnchecked t) (.checked t)
  | saveUpdate (c) (t) (db') : db.saveTenant w (t.update c.name c.slug now).primitives = some db' →
      TenancyMove w new now db false db' (.update c) (.checked t) .succeeded
  | tenantExists (c) (t) : db.findTenant c.tenantId = some t →
      TenancyMove w new now db false db (.addMember c) .received .tenantExists
  | userFound (c) (u) : w.findUserIdByEmail c.email = some u →
      TenancyMove w new now db false db (.addMember c) .tenantExists (.userFound u)
  | membershipAvailable (c) (u) : db.findByTenantIdAndUserId c.tenantId u = none →
      TenancyMove w new now db false db (.addMember c) (.userFound u) (.membershipAvailable u)
  | saveMember (c) (u) (db') :
      db.saveMembership w ⟨new.membershipId, c.tenantId, u, c.role, now, now⟩ = some db' →
      TenancyMove w new now db false db' (.addMember c) (.membershipAvailable u) .succeeded
  | load (c) (t) : db.findTenant c.tenantId = some t →
      TenancyMove w new now db false db (.delete c) .received (.loaded t.toAggregate)
  | assertOwner (c) (t) :
      (db.findByTenantIdAndUserId c.tenantId c.requesterUserId).any (·.isOwner) = true →
      TenancyMove w new now db false db (.delete c) (.loaded t) (.ownerAsserted t.delete)
  | deleteMemberships (c) (t) : TenancyMove w new now db false (db.deleteAllByTenantId c.tenantId)
      (.delete c) (.ownerAsserted t) (.membershipsDeleted t)
  | deleteTenant (c) (t) : TenancyMove w new now db false (db.deleteTenant t.primitives.id) (.delete c)
      (.membershipsDeleted t) .succeeded

theorem advance_tenancyMove {w : TenancyWorld} {new : NewTenancyIds} {now : Date} {db db' : TenancyDb}
    {r : TenancyRequest} {p p' : TenancyPhase} (h : db.advance w new now r p = some (db', p')) :
    TenancyMove w new now db false db' r p p' := by
  unfold TenancyDb.advance at h
  split at h
  case h_16 => cases h
  · split at h <;> cases h
    · exact .appExists _
    · exact .reject _ _ _ (by simp) rfl
  · split at h <;> cases h
    · exact .reject _ _ _ (by simp) rfl
    · exact .slugAvailable _ ‹_›
  · dsimp only at h
    split at h <;> cases h
    · exact .saveTenant _ _ ‹_›
    · exact .reject _ _ _ (by simp) rfl
  · split at h <;> cases h
    · exact .saveOwner _ _ _ ‹_›
    · exact .ownerUnsaved _ _ ‹_›
  · split at h
    · cases h; exact .reject _ _ _ (by simp) rfl
    rename_i c _ t ht
    split at h <;> cases h <;> rename_i hslug
    · obtain ⟨slug, hc, hne⟩ := (Option.any_eq_true _ _).1 hslug
      exact .loadUnchecked _ _ ht ⟨slug, hc, by simpa using hne⟩
    · refine .loadChecked _ _ ht ?_
      cases hc : c.slug with
      | none => rfl
      | some slug => simpa [hc] using hslug
  · dsimp only at h
    split at h <;> cases h
    · exact .reject _ _ _ (by simp) rfl
    · exact .checkSlug _ _ ‹_›
  · split at h <;> cases h
    · exact .saveUpdate _ _ _ ‹_›
    · exact .reject _ _ _ (by simp) rfl
  · split at h <;> cases h
    · exact .reject _ _ _ (by simp) rfl
    · exact .tenantExists _ _ ‹_›
  · split at h <;> cases h
    · exact .reject _ _ _ (by simp) rfl
    · exact .userFound _ _ ‹_›
  · split at h <;> cases h
    · exact .reject _ _ _ (by simp) rfl
    · exact .membershipAvailable _ _ ‹_›
  · split at h <;> cases h
    · exact .saveMember _ _ _ ‹_›
    · exact .reject _ _ _ (by simp) rfl
  · split at h <;> cases h
    · exact .reject _ _ _ (by simp) rfl
    · exact .load _ _ ‹_›
  · split at h <;> cases h
    · exact .assertOwner _ _ ‹_›
    · exact .reject _ _ _ (by simp) rfl
  · cases h; exact .deleteMemberships _ _
  · cases h; exact .deleteTenant _ _

/-- A request that has succeeded makes no call. -/
theorem TenancyMove.ne_succeeded {w : TenancyWorld} {new : NewTenancyIds} {now : Date} {db db' : TenancyDb}
    {fails : Bool} {r : TenancyRequest} {p p' : TenancyPhase}
    (hm : TenancyMove w new now db fails db' r p p') : p ≠ .succeeded := by
  cases hm with
  | abort _ _ hp => exact hp
  | reject _ _ _ hp => exact hp
  | _ => simp

/-- **One step of the system** is a call of its request, and the other requests stay where they are. -/
theorem tenancy_step {ι : Type} [DecidableEq ι] {S : Tenancy ι} {s s' : TenancyState ι}
    {a : TenancyStep ι} (h : S.step s a = some s') :
    TenancyMove S.world (S.new a.request) a.now s.db a.fails s'.db (S.requests a.request)
        (s.phase a.request) (s'.phase a.request) ∧
      ∀ j, j ≠ a.request → s'.phase j = s.phase j := by
  unfold Tenancy.step at h
  obtain ⟨⟨db, p⟩, hnext, hs⟩ := Option.map_eq_some_iff.1 h
  cases hf : a.fails with
  | true =>
    rw [if_pos hf] at hs
    subst hs
    refine ⟨?_, fun j hj => Function.update_of_ne hj _ _⟩
    simp only [Function.update_self]
    refine .abort _ _ fun hp => ?_
    rw [Tenancy.next, hp] at hnext
    cases hr : S.requests a.request <;> rw [hr] at hnext <;> cases hnext
  | false =>
    rw [if_neg (by simp [hf])] at hs
    subst hs
    refine ⟨?_, fun j hj => Function.update_of_ne hj _ _⟩
    simp only [Function.update_self]
    exact advance_tenancyMove hnext

/-! ## A request with nothing in between -/

/-- What a request leaves behind when nothing happens between its calls. -/
inductive TenancyOutcome (w : TenancyWorld) (new : NewTenancyIds) (now : Date) (db : TenancyDb) :
    TenancyRequest → TenancyDb × TenancyPhase → Prop
  | failed (r) (e) : TenancyOutcome w new now db r (db, .failed e)
  | ownerUnsaved (c) (db') (e) : db.saveTenant w (c.tenant new.tenantId now).primitives = some db' →
      TenancyOutcome w new now db (.create c) (db', .failed e)
  | created (c) (db₁ db₂) : db.saveTenant w (c.tenant new.tenantId now).primitives = some db₁ →
      db₁.saveMembership w ⟨new.membershipId, new.tenantId, c.creatorUserId, .owner, now, now⟩ = some db₂ →
      TenancyOutcome w new now db (.create c) (db₂, .succeeded)
  | updated (c) (t) (db') : db.findTenant c.tenantId = some t →
      db.saveTenant w (t.toAggregate.update c.name c.slug now).primitives = some db' →
      TenancyOutcome w new now db (.update c) (db', .succeeded)
  | added (c) (u) (db') : (db.findTenant c.tenantId).isSome = true → w.findUserIdByEmail c.email = some u →
      db.findByTenantIdAndUserId c.tenantId u = none →
      db.saveMembership w ⟨new.membershipId, c.tenantId, u, c.role, now, now⟩ = some db' →
      TenancyOutcome w new now db (.addMember c) (db', .succeeded)
  | deleted (c) (t) : db.findTenant c.tenantId = some t →
      (db.findByTenantIdAndUserId c.tenantId c.requesterUserId).any (·.isOwner) = true →
      TenancyOutcome w new now db (.delete c)
        ((db.deleteAllByTenantId c.tenantId).deleteTenant c.tenantId, .succeeded)

namespace TenancyOutcome

variable {w : TenancyWorld} {new : NewTenancyIds} {now : Date} {db db' : TenancyDb} {r : TenancyRequest}
  {p : TenancyPhase} {q : TenancyDb × TenancyPhase} {n : ℕ}

theorem call (h : db'.advance w new now r p = some q)
    (ho : TenancyOutcome w new now db r (TenancyDb.complete w new now r n q)) :
    TenancyOutcome w new now db r (TenancyDb.complete w new now r (n + 1) (db', p)) := by
  rw [TenancyDb.complete]
  simp only [h]
  exact ho

theorem done (ho : TenancyOutcome w new now db r (db', p)) (h : db'.advance w new now r p = none) :
    TenancyOutcome w new now db r (TenancyDb.complete w new now r n (db', p)) := by
  cases n with
  | zero => exact ho
  | succ n =>
    rw [TenancyDb.complete]
    simp only [h]
    exact ho

/-- A request whose next call fails leaves the tables as they are. -/
theorem fail {e : TenancyError} (h : db.advance w new now r p = some (db, .failed e)) :
    TenancyOutcome w new now db r (TenancyDb.complete w new now r (n + 1) (db, p)) :=
  call h (done (failed r e) (by cases r <;> rfl))

theorem create (c : CreateTenantCommand) :
    TenancyOutcome w new now db (.create c) (db.execute w new now (.create c)) := by
  unfold TenancyDb.execute
  cases happ : w.apps.contains c.appId with
  | false => exact fail (by simp only [TenancyDb.advance, happ]; rfl)
  | true =>
  refine call (by simp only [TenancyDb.advance, happ]; rfl) ?_
  cases hslug : db.findByAppIdAndSlug c.appId c.slug with
  | some t => exact fail (by simp only [TenancyDb.advance, hslug]; rfl)
  | none =>
  refine call (by simp only [TenancyDb.advance, hslug]; rfl) ?_
  cases hsave : db.saveTenant w (c.tenant new.tenantId now).primitives with
  | none => exact fail (by simp only [TenancyDb.advance, hsave]; rfl)
  | some db₁ =>
  refine call (by simp only [TenancyDb.advance, hsave]; rfl) ?_
  cases howner : db₁.saveMembership w
      ⟨new.membershipId, new.tenantId, c.creatorUserId, .owner, now, now⟩ with
  | none =>
    refine call (by simp only [TenancyDb.advance, CreateTenantCommand.tenant_primitives, howner]; rfl) ?_
    exact done (ownerUnsaved c db₁ _ hsave) rfl
  | some db₂ =>
    refine call (by simp only [TenancyDb.advance, CreateTenantCommand.tenant_primitives, howner]; rfl) ?_
    exact done (created c db₁ db₂ hsave howner) rfl

theorem update (c : UpdateTenantCommand) :
    TenancyOutcome w new now db (.update c) (db.execute w new now (.update c)) := by
  unfold TenancyDb.execute
  cases ht : db.findTenant c.tenantId with
  | none => exact fail (by simp only [TenancyDb.advance, ht]; rfl)
  | some t =>
  have hlast : ∀ n, TenancyOutcome w new now db (.update c)
      (TenancyDb.complete w new now (.update c) (n + 1) (db, .checked t.toAggregate)) := by
    intro n
    cases hsave : db.saveTenant w (t.toAggregate.update c.name c.slug now).primitives with
    | none => exact fail (by simp only [TenancyDb.advance, hsave]; rfl)
    | some db' =>
      refine call (by simp only [TenancyDb.advance, hsave]; rfl) ?_
      exact done (updated c t db' ht hsave) rfl
  cases hslug : c.slug.any fun slug => slug ≠ t.slug with
  | false =>
    refine call (by simp only [TenancyDb.advance, ht, hslug]; rfl) ?_
    exact hlast 2
  | true =>
    refine call (by simp only [TenancyDb.advance, ht, hslug]; rfl) ?_
    cases hfree : db.findByAppIdAndSlug t.appId (c.slug.getD t.slug) with
    | some x =>
      exact fail (by simp only [TenancyDb.advance, TenantEntity.toAggregate_primitives, hfree]; rfl)
    | none =>
      refine call (by simp only [TenancyDb.advance, TenantEntity.toAggregate_primitives, hfree]; rfl) ?_
      exact hlast 1

theorem addMember (c : AddTenantMemberCommand) :
    TenancyOutcome w new now db (.addMember c) (db.execute w new now (.addMember c)) := by
  unfold TenancyDb.execute
  cases ht : db.findTenant c.tenantId with
  | none => exact fail (by simp only [TenancyDb.advance, ht]; rfl)
  | some t =>
  refine call (by simp only [TenancyDb.advance, ht]; rfl) ?_
  cases hu : w.findUserIdByEmail c.email with
  | none => exact fail (by simp only [TenancyDb.advance, hu]; rfl)
  | some u =>
  refine call (by simp only [TenancyDb.advance, hu]; rfl) ?_
  cases hm : db.findByTenantIdAndUserId c.tenantId u with
  | some m => exact fail (by simp only [TenancyDb.advance, hm]; rfl)
  | none =>
  refine call (by simp only [TenancyDb.advance, hm]; rfl) ?_
  cases hsave : db.saveMembership w ⟨new.membershipId, c.tenantId, u, c.role, now, now⟩ with
  | none => exact fail (by simp only [TenancyDb.advance, hsave]; rfl)
  | some db' =>
    refine call (by simp only [TenancyDb.advance, hsave]; rfl) ?_
    exact done (added c u db' (by rw [ht]; rfl) hu hm hsave) rfl

theorem delete (c : DeleteTenantCommand) :
    TenancyOutcome w new now db (.delete c) (db.execute w new now (.delete c)) := by
  unfold TenancyDb.execute
  cases ht : db.findTenant c.tenantId with
  | none => exact fail (by simp only [TenancyDb.advance, ht]; rfl)
  | some t =>
  refine call (by simp only [TenancyDb.advance, ht]; rfl) ?_
  cases howner : (db.findByTenantIdAndUserId c.tenantId c.requesterUserId).any (·.isOwner) with
  | false => exact fail (by simp only [TenancyDb.advance, howner]; rfl)
  | true =>
  refine call (by simp only [TenancyDb.advance, howner]; rfl) (call rfl (call rfl (done ?_ rfl)))
  have hid := (TenancyDb.findTenant_some ht).2
  rw [TenantAggregate.delete_primitives, TenantEntity.toAggregate_primitives, hid]
  exact deleted c t ht howner

end TenancyOutcome

/-- **The handlers return** after at most four calls, with one of these outcomes. -/
theorem execute_outcome (w : TenancyWorld) (new : NewTenancyIds) (now : Date) (db : TenancyDb)
    (r : TenancyRequest) : TenancyOutcome w new now db r (db.execute w new now r) := by
  cases r with
  | create c => exact .create c
  | update c => exact .update c
  | addMember c => exact .addMember c
  | delete c => exact .delete c

section
variable {ι : Type} [DecidableEq ι] (S : Tenancy ι) (i : ι) (now : Date) (phase : ι → TenancyPhase)

theorem complete_run (n : ℕ) (q : TenancyDb × TenancyPhase) : ∃ k ≤ n,
    exec S.step ⟨q.1, Function.update phase i q.2⟩ (List.replicate k ⟨i, false, now⟩) =
      some ⟨(TenancyDb.complete S.world (S.new i) now (S.requests i) n q).1,
        Function.update phase i (TenancyDb.complete S.world (S.new i) now (S.requests i) n q).2⟩ := by
  induction n generalizing q with
  | zero => exact ⟨0, le_rfl, exec_nil.2 rfl⟩
  | succ n ih =>
    rw [TenancyDb.complete]
    cases h : q.1.advance S.world (S.new i) now (S.requests i) q.2 with
    | none => exact ⟨0, Nat.zero_le _, exec_nil.2 rfl⟩
    | some q' =>
      obtain ⟨k, hk, hrun⟩ := ih q'
      refine ⟨k + 1, Nat.succ_le_succ hk, exec_cons.2 ⟨_, ?_, hrun⟩⟩
      have hnext : S.next ⟨q.1, Function.update phase i q.2⟩ i now = some q' := by
        simp only [Tenancy.next, Function.update_self]
        exact h
      simp [Tenancy.step, hnext]

/-- **A request that runs alone in the system** ends as `execute` says, after at most four steps. -/
theorem execute_run {db : TenancyDb} (h : phase i = .received) : ∃ k ≤ 4,
    exec S.step ⟨db, phase⟩ (List.replicate k ⟨i, false, now⟩) =
      some ⟨(db.execute S.world (S.new i) now (S.requests i)).1,
        Function.update phase i (db.execute S.world (S.new i) now (S.requests i)).2⟩ := by
  have hrun := complete_run S i now phase 4 (db, .received)
  rwa [Function.update_eq_self_iff.2 h.symm] at hrun

end

/-- The tenant an update, an addition or a deletion names. -/
def TenancyRequest.tenantId : TenancyRequest → Option Uuid
  | create _ => none
  | update c => some c.tenantId
  | addMember c => some c.tenantId
  | delete c => some c.tenantId

/-- The aggregate a request holds. -/
def TenancyPhase.tenant : TenancyPhase → Option TenantAggregate
  | tenantSaved t | slugUnchecked t | checked t => some t
  | loaded t | ownerAsserted t | membershipsDeleted t => some t
  | _ => none

section
variable {ι : Type} [DecidableEq ι] {S : Tenancy ι} {s s' : TenancyState ι} {a : TenancyStep ι}

/-- What a request holds is the tenant it names. -/
def Tenancy.OnTarget (S : Tenancy ι) (s : TenancyState ι) : Prop :=
  ∀ i T t, (S.requests i).tenantId = some T → (s.phase i).tenant = some t → t.primitives.id = T

omit [DecidableEq ι] in
theorem onTarget_start (db : TenancyDb) : S.OnTarget (Tenancy.start db) := by
  intro i T t _ ht
  cases ht

theorem TenancyMove.onTarget {w : TenancyWorld} {new : NewTenancyIds} {now : Date} {db db' : TenancyDb}
    {fails : Bool} {r : TenancyRequest} {p p' : TenancyPhase} {T : Uuid} {t : TenantAggregate}
    (hm : TenancyMove w new now db fails db' r p p') (hr : r.tenantId = some T)
    (hprev : ∀ t, p.tenant = some t → t.primitives.id = T) (ht : p'.tenant = some t) :
    t.primitives.id = T := by
  cases hm with
  | saveTenant => cases hr
  | loadUnchecked c u hu => cases ht; cases hr; exact (TenancyDb.findTenant_some hu).2
  | loadChecked c u hu => cases ht; cases hr; exact (TenancyDb.findTenant_some hu).2
  | load c u hu => cases ht; cases hr; exact (TenancyDb.findTenant_some hu).2
  | checkSlug c u => cases ht; exact hprev t rfl
  | assertOwner c u => cases ht; exact hprev u rfl
  | deleteMemberships c u => cases ht; exact hprev t rfl
  | _ => cases ht

theorem onTarget_step (hI : S.OnTarget s) (h : S.step s a = some s') : S.OnTarget s' := by
  obtain ⟨hm, hother⟩ := tenancy_step h
  intro i T t hT ht
  by_cases hi : i = a.request
  · subst hi
    exact hm.onTarget hT (fun u hu => hI a.request T u hT hu) ht
  · rw [hother i hi] at ht
    exact hI i T t hT ht

/-- The step saves an updated tenant whose row is gone, so that it is inserted again. -/
def Tenancy.Reinserts (S : Tenancy ι) (s : TenancyState ι) (a : TenancyStep ι) (T : Uuid) : Prop :=
  a.fails = false ∧ ∃ c t, S.requests a.request = .update c ∧ s.phase a.request = .checked t ∧
    t.primitives.id = T ∧ s.db.findTenant T = none ∧ S.world.apps.contains t.primitives.appId = true ∧
    s.db.findByAppIdAndSlug t.primitives.appId (c.slug.getD t.primitives.slug) = none

end

end AccountApi

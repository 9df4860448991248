import AccountApi.Proof.TenancyMoves
import AccountApi.Spec.TenantAccess

/-!
# Who can come to own a tenant

The guard asks for the permission to manage members and the handler does not look at
the role that is granted. So an `ADMIN` may add an `OWNER`, who may delete the tenant.

* `AccessInv`: a claim of a token about a tenant that still exists agrees with the
  membership row, and every member was reached by a chain of additions.
* `additions_and_deletions`: every addition is made by an `OWNER` or an `ADMIN`, and
  every deletion by a user such a chain has reached.
-/

namespace AccountApi

open Transition

variable {A : TenantAccess} {s s' : TenantAccessState}

/-- The roles that manage members. -/
def TenantRoleEnum.MayAdd (role : TenantRoleEnum) : Prop := role = .owner ∨ role = .admin

theorem mayAdd_iff {role : TenantRoleEnum} : .manageMembers ∈ tenantRolePermissions role ↔ role.MayAdd := by
  cases role <;> simp [tenantRolePermissions, TenantRoleEnum.MayAdd]

/-- What a role that manages members can grant: no permission it lacks, but for an `OWNER` added by
an `ADMIN`. -/
theorem permissions_subset {rc rg : TenantRoleEnum} (h : rc.MayAdd) (hne : ¬ (rc = .admin ∧ rg = .owner)) :
    tenantRolePermissions rg ⊆ tenantRolePermissions rc := by
  rcases h with rfl | rfl
  · cases rg <;> decide
  · cases rg with
    | owner => exact absurd ⟨rfl, rfl⟩ hne
    | member => decide
    | admin => decide

/-- The addition and the deletions of a history are as they should be: members are added by users
who may, and tenants are deleted by users who were reached before. -/
def Accounted : List TenantAction → Prop
  | [] => True
  | .created _ _ :: h => Accounted h
  | .added _ _ _ callerRole _ :: h => (∃ rc, callerRole = some rc ∧ rc.MayAdd) ∧ Accounted h
  | .deleted tenantId userId :: h => Reached TenantRoleEnum.MayAdd tenantId h userId ∧ Accounted h

structure AccessInv (A : TenantAccess) (s : TenantAccessState) : Prop where
  tenantIds : ∀ t ∈ s.db.tenants, ∃ k < s.calls, t.id = A.newTenantId k
  membershipIds : ∀ m ∈ s.db.memberships, ∃ k < s.calls, m.id = A.newMembershipId k
  /-- `FK_tenant_membership_tenant_id`. -/
  existing : ∀ m ∈ s.db.memberships, (s.db.findTenant m.tenantId).isSome = true
  /-- `UQ_tenant_membership_tenant_id_user_id`. -/
  unique : (s.db.memberships.map fun m => (m.tenantId, m.userId)).Nodup
  claimed : ∀ token ∈ s.tokens, ∀ c ∈ token.tenants, ∃ k < s.calls, c.tenantId = A.newTenantId k
  claims : ∀ token ∈ s.tokens, ∀ c ∈ token.tenants, (s.db.findTenant c.tenantId).isSome = true →
    ∃ m ∈ s.db.memberships, m.tenantId = c.tenantId ∧ m.userId = token.sub ∧ m.role = c.role
  reached : ∀ m ∈ s.db.memberships, Reached TenantRoleEnum.MayAdd m.tenantId s.history m.userId
  accounted : Accounted s.history

theorem accessInv_start : AccessInv A TenantAccess.start := by
  constructor <;> simp [TenantAccess.start, Accounted]

/-- A membership is found under its tenant and its user. -/
theorem AccessInv.find (hI : AccessInv A s) {m : TenantMembershipEntity} (hm : m ∈ s.db.memberships) :
    s.db.findByTenantIdAndUserId m.tenantId m.userId = some m := by
  have h : s.db.memberships.find? (fun x => (x.tenantId, x.userId) = (m.tenantId, m.userId)) = some m :=
    Table.find_key_of_mem hI.unique hm
  simpa [TenancyDb.findByTenantIdAndUserId, Prod.mk.injEq] using h

section
variable {w : TenancyWorld} {db' : TenancyDb} {t : TenantEntity} {m : TenantMembershipEntity} {T : Uuid}
  {a : TenantAction}

/-- A call that changes nothing. -/
theorem AccessInv.called (hI : AccessInv A s) : AccessInv A { s with calls := s.calls + 1 } where
  tenantIds t ht := (hI.tenantIds t ht).imp fun _ hk => ⟨Nat.lt_succ_of_lt hk.1, hk.2⟩
  membershipIds m hm := (hI.membershipIds m hm).imp fun _ hk => ⟨Nat.lt_succ_of_lt hk.1, hk.2⟩
  existing := hI.existing
  unique := hI.unique
  claimed token ht c hc := (hI.claimed token ht c hc).imp fun _ hk => ⟨Nat.lt_succ_of_lt hk.1, hk.2⟩
  claims := hI.claims
  reached := hI.reached
  accounted := hI.accounted

/-- A call that saves a tenant, under a new id or over its row. -/
theorem AccessInv.saveTenant (hI : AccessInv A s) (hs : s.db.saveTenant w t = some db')
    (hid : t.id = A.newTenantId s.calls ∨ (s.db.findTenant t.id).isSome = true) :
    AccessInv A { s with db := db', calls := s.calls + 1 } := by
  obtain ⟨-, hmem, -⟩ := TenancyDb.saveTenant_some hs
  have hfind := TenancyDb.findTenant_saveTenant hs
  have hcalled := hI.called
  constructor
  case tenantIds =>
    intro x hx
    rcases TenancyDb.mem_saveTenant hs hx with rfl | ⟨hx, -⟩
    · rcases hid with hnew | hold
      · exact ⟨s.calls, Nat.lt_succ_self _, hnew⟩
      · obtain ⟨y, hy⟩ := Option.isSome_iff_exists.1 hold
        obtain ⟨hy, hyid⟩ := TenancyDb.findTenant_some hy
        rw [← hyid]
        exact hcalled.tenantIds y hy
    · exact hcalled.tenantIds x hx
  case existing =>
    intro m hm
    rw [hmem] at hm
    rw [hfind]
    split
    · rfl
    · exact hI.existing m hm
  case claims =>
    intro token htoken c hc hrow
    simp only [hmem]
    rw [hfind] at hrow
    refine hI.claims token htoken c hc ?_
    split at hrow
    case isFalse => exact hrow
    case isTrue hct =>
      -- no token issued so far can have a claim about a tenant with a new id
      rcases hid with hnew | hold
      · obtain ⟨k, hk, hck⟩ := hI.claimed token htoken c hc
        have hkc := A.newTenantId.injective (hck.symm.trans (hct.trans hnew))
        omega
      · rw [hct]; exact hold
  case membershipIds => rw [hmem]; exact hcalled.membershipIds
  case unique => rw [hmem]; exact hI.unique
  case claimed => exact hcalled.claimed
  case reached => rw [hmem]; exact hI.reached
  case accounted => exact hI.accounted

/-- A call that saves a new membership. -/
theorem AccessInv.saveMembership (hI : AccessInv A s) (hs : s.db.saveMembership w m = some db')
    (hnew : ∀ x ∈ s.db.memberships, x.id ≠ m.id) (hid : ∃ k < s.calls, m.id = A.newMembershipId k)
    (hreached : Reached TenantRoleEnum.MayAdd m.tenantId (a :: s.history) m.userId)
    (hacc : Accounted (a :: s.history)) :
    AccessInv A { s with db := db', history := a :: s.history } := by
  obtain ⟨htenant, -, hup⟩ := TenancyDb.saveMembership_some hs
  have hfree := (Table.upsert_some hup).1
  obtain rfl := TenancyDb.saveMembership_insert hnew hs
  constructor
  case tenantIds => exact hI.tenantIds
  case claimed => exact hI.claimed
  case accounted => exact hacc
  case membershipIds =>
    intro x hx
    rcases List.mem_append.1 hx with hx | hx
    · exact hI.membershipIds x hx
    · rw [List.mem_singleton.1 hx]; exact hid
  case existing =>
    intro x hx
    rcases List.mem_append.1 hx with hx | hx
    · exact hI.existing x hx
    · rw [List.mem_singleton.1 hx]; exact htenant
  case unique =>
    refine Table.nodup_insert hI.unique fun x hx heq => ?_
    rw [Prod.mk.injEq] at heq
    simpa [heq.1, heq.2] using hfree x hx (hnew x hx)
  case claims =>
    intro token htoken c hc hrow
    obtain ⟨x, hx, hrest⟩ := hI.claims token htoken c hc hrow
    exact ⟨x, List.mem_append_left _ hx, hrest⟩
  case reached =>
    intro x hx
    rcases List.mem_append.1 hx with hx | hx
    · exact .later _ _ _ (hI.reached x hx)
    · rw [List.mem_singleton.1 hx]; exact hreached

/-- A call that deletes a tenant and its memberships. -/
theorem AccessInv.deleteTenant (hI : AccessInv A s) (hacc : Accounted (a :: s.history)) :
    AccessInv A { s with
      db := (s.db.deleteAllByTenantId T).deleteTenant T, history := a :: s.history } := by
  have hmem : ∀ m, m ∈ ((s.db.deleteAllByTenantId T).deleteTenant T).memberships ↔
      m ∈ s.db.memberships ∧ m.tenantId ≠ T := fun m => by
    simp [TenancyDb.deleteTenant, TenancyDb.deleteAllByTenantId]
  have hfind : ∀ id, ((s.db.deleteAllByTenantId T).deleteTenant T).findTenant id =
      if id = T then none else s.db.findTenant id := Table.find_delete T
  constructor
  case tenantIds => exact fun t ht => hI.tenantIds t (List.mem_filter.1 ht).1
  case membershipIds => exact fun m hm => hI.membershipIds m ((hmem m).1 hm).1
  case existing =>
    intro m hm
    obtain ⟨hm, hne⟩ := (hmem m).1 hm
    rw [hfind, if_neg hne]
    exact hI.existing m hm
  case unique =>
    refine hI.unique.sublist (List.Sublist.map _ ?_)
    exact List.filter_sublist.trans List.filter_sublist
  case claimed => exact hI.claimed
  case claims =>
    intro token htoken c hc hrow
    rw [hfind] at hrow
    split at hrow
    case isTrue => cases hrow
    case isFalse hne =>
      obtain ⟨m, hm, hT, hrest⟩ := hI.claims token htoken c hc hrow
      exact ⟨m, (hmem m).2 ⟨hm, hT ▸ hne⟩, hT, hrest⟩
  case reached => exact fun m hm => .later _ _ _ (hI.reached m ((hmem m).1 hm).1)
  case accounted => exact hacc

end

/-- A caller whom the guard lets through is a member of the tenant, if it exists, and the role of
the membership grants the permission. -/
theorem AccessInv.caller (hI : AccessInv A s) (hg : A.guard.Sound) {token : AccessTokenClaims}
    (htoken : token ∈ s.tokens) {T : Uuid} {permission : TenantPermissionEnum}
    (hallow : A.guard token.tenants T permission = true) (hrow : (s.db.findTenant T).isSome = true) :
    ∃ m, s.db.findByTenantIdAndUserId T token.sub = some m ∧
      Reached TenantRoleEnum.MayAdd T s.history token.sub ∧ permission ∈ tenantRolePermissions m.role := by
  obtain ⟨c, hc, rfl, hperm⟩ := hg _ _ _ hallow
  obtain ⟨m, hm, hT, hu, hrole⟩ := hI.claims token htoken c hc hrow
  refine ⟨m, ?_, ?_, hrole ▸ hperm⟩
  · rw [← hT, ← hu]; exact hI.find hm
  · rw [← hT, ← hu]; exact hI.reached m hm

/-- The new membership id of a call is not in use. -/
theorem AccessInv.unused (hI : AccessInv A s) {m : TenantMembershipEntity} (hm : m ∈ s.db.memberships) :
    m.id ≠ (A.new s).membershipId := by
  intro hid
  obtain ⟨k, hk, hmk⟩ := hI.membershipIds m hm
  have hkc := A.newMembershipId.injective (hmk.symm.trans hid)
  omega

/-- **What the handler does for a caller whom the guard lets through** preserves the invariant. -/
theorem accessInv_execute (hI : AccessInv A s) (hg : A.guard.Sound) {token : AccessTokenClaims}
    (htoken : token ∈ s.tokens) {endpoint : Endpoint} (hallow : A.allows token endpoint = true)
    (w : TenancyWorld) (now : Date) : AccessInv A (A.execute s token.sub endpoint w now) := by
  have ho := execute_outcome w (A.new s) now s.db (endpoint.command token.sub)
  unfold TenantAccess.execute
  generalize s.db.execute w (A.new s) now (endpoint.command token.sub) = q at ho ⊢
  cases endpoint with
  | create appId name slug =>
    cases ho with
    | failed => exact hI.called
    | ownerUnsaved _ db' e hs => exact hI.saveTenant hs (Or.inl rfl)
    | created _ db₁ db₂ hs hm =>
      have hI₁ := hI.saveTenant hs (Or.inl rfl)
      have hmem := (TenancyDb.saveTenant_some hs).2.1
      refine hI₁.saveMembership hm ?_ ⟨s.calls, Nat.lt_succ_self _, rfl⟩ (.creator _ _) hI.accounted
      simp only [hmem]
      exact fun x hx => hI.unused hx
  | update tenantId name slug =>
    -- nothing happens between the load and the save, so the row is there
    cases ho with
    | failed => exact hI.called
    | updated _ t db' ht hs =>
      refine hI.saveTenant hs (Or.inr ?_)
      rw [TenantAggregate.update_primitives, TenantEntity.toAggregate_primitives,
        (TenancyDb.findTenant_some ht).2, ht]
      rfl
  | addMember tenantId email role =>
    cases ho with
    | failed => exact hI.called
    | added _ u db' ht hu hfree hs =>
      obtain ⟨m, hfind, hreached, hperm⟩ := hI.caller hg htoken hallow ht
      have hmay := mayAdd_iff.1 hperm
      simp only [Endpoint.action, hu, hfind, Option.map_some, Option.toList_some, if_true]
      exact hI.called.saveMembership hs (fun x hx => hI.unused hx) ⟨s.calls, Nat.lt_succ_self _, rfl⟩
        (.added _ _ _ _ _ hreached hmay) ⟨⟨_, rfl, hmay⟩, hI.accounted⟩
  | delete tenantId =>
    cases ho with
    | failed => exact hI.called
    | deleted _ t ht howner =>
      obtain ⟨-, -, hreached, -⟩ := hI.caller hg htoken hallow (by rw [ht]; rfl)
      exact hI.called.deleteTenant ⟨hreached, hI.accounted⟩

theorem accessInv_step (hg : A.guard.Sound) {o : TenantOperation} (hI : AccessInv A s)
    (h : A.step s o = some s') : AccessInv A s' := by
  cases o with
  | issueToken userId =>
    cases h
    have hclaim : ∀ c ∈ (s.db.accessToken userId).tenants, ∃ m ∈ s.db.memberships,
        m.tenantId = c.tenantId ∧ m.userId = userId ∧ m.role = c.role := by
      intro c hc
      obtain ⟨m, hm, rfl⟩ := List.mem_map.1 hc
      rw [List.mem_filter, decide_eq_true_eq] at hm
      exact ⟨m, hm.1, rfl, hm.2, rfl⟩
    -- the new token says what the table says now
    refine { hI with claimed := fun token ht c hc => ?_, claims := fun token ht c hc hrow => ?_ }
    · rcases List.mem_cons.1 ht with rfl | ht
      · obtain ⟨m, hm, hT, -⟩ := hclaim c hc
        obtain ⟨t, hrow⟩ := Option.isSome_iff_exists.1 (hI.existing m hm)
        obtain ⟨ht, htid⟩ := TenancyDb.findTenant_some hrow
        rw [← hT, ← htid]
        exact hI.tenantIds t ht
      · exact hI.claimed token ht c hc
    · rcases List.mem_cons.1 ht with rfl | ht
      · exact hclaim c hc
      · exact hI.claims token ht c hc hrow
  | call token endpoint w now =>
    rw [TenantAccess.step] at h
    split at h
    case isFalse => cases h
    case isTrue htoken =>
      split at h <;> cases h
      · exact accessInv_execute hI hg htoken ‹_› w now
      · exact hI

theorem Accounted.added {h : List TenantAction} (hacc : Accounted h) {T u v : Uuid}
    {callerRole : Option TenantRoleEnum} {role : TenantRoleEnum} (hmem : .added T u v callerRole role ∈ h) :
    ∃ rc, callerRole = some rc ∧ rc.MayAdd := by
  induction h with
  | nil => cases hmem
  | cons a h ih =>
    rcases List.mem_cons.1 hmem with rfl | hin
    · exact hacc.1
    · cases a with
      | created => exact ih hacc hin
      | added => exact ih hacc.2 hin
      | deleted => exact ih hacc.2 hin

theorem Accounted.deleted {h h' : List TenantAction} {T u : Uuid}
    (hacc : Accounted (h' ++ .deleted T u :: h)) : Reached TenantRoleEnum.MayAdd T h u := by
  induction h' with
  | nil => exact hacc.1
  | cons a h' ih =>
    cases a with
    | created => exact ih hacc
    | added => exact ih hacc.2
    | deleted => exact ih hacc.2

/-- **Member management never goes beyond the roles that manage members**: on every run, whoever
adds a member is an `OWNER` or an `ADMIN` of the tenant and grants no permission the own role
lacks, but for an `ADMIN` who adds an `OWNER`; and whoever deletes a tenant created it or was
reached from its creator by a chain of additions, each made by an `OWNER` or an `ADMIN`. -/
theorem additions_and_deletions (hg : A.guard.Sound) {os : List TenantOperation}
    (h : exec A.step TenantAccess.start os = some s) :
    (∀ T u v callerRole rg, .added T u v callerRole rg ∈ s.history → ∃ rc, callerRole = some rc ∧
        (rc = .owner ∨ rc = .admin) ∧
        (tenantRolePermissions rg ⊆ tenantRolePermissions rc ∨ rc = .admin ∧ rg = .owner)) ∧
      ∀ h' h T u, s.history = h' ++ .deleted T u :: h →
        Reached (fun role => role = .owner ∨ role = .admin) T h u := by
  have hI : AccessInv A s := invariant (fun _ _ _ hI h => accessInv_step hg hI h) accessInv_start h
  refine ⟨fun T u v callerRole rg hmem => ?_, fun h' h T u heq => ?_⟩
  · obtain ⟨rc, rfl, hmay⟩ := hI.accounted.added hmem
    refine ⟨rc, rfl, hmay, ?_⟩
    by_cases hne : rc = .admin ∧ rg = .owner
    · exact Or.inr hne
    · exact Or.inl (permissions_subset hmay hne)
  · have hacc := hI.accounted
    rw [heq] at hacc
    exact hacc.deleted

theorem small_sound : TenantAccess.small.guard.Sound := by
  intro claims tenantId permission h
  obtain ⟨c, hc, hok⟩ := List.any_eq_true.1 h
  rw [Bool.and_eq_true, decide_eq_true_eq, List.contains_iff_mem] at hok
  exact ⟨c, hc, hok⟩

/-- Jane creates a tenant and adds John as an `ADMIN`, John adds Jack as an `OWNER`, and Jack deletes
the tenant. -/
def escalation : List TenantOperation :=
  let world : TenancyWorld :=
    ⟨[1], [("jane@example.com", 11), ("john@example.com", 12), ("jack@example.com", 13)]⟩
  [.issueToken 11, .call ⟨11, []⟩ (.create 1 "Acme" "acme") world (.millis 1),
    .issueToken 11,
    .call ⟨11, [⟨100, .owner⟩]⟩ (.addMember 100 "john@example.com" .admin) world (.millis 2),
    .issueToken 12,
    .call ⟨12, [⟨100, .admin⟩]⟩ (.addMember 100 "jack@example.com" .owner) world (.millis 3),
    .issueToken 13, .call ⟨13, [⟨100, .owner⟩]⟩ (.delete 100) world (.millis 4)]

theorem additions_and_deletions_escalation : ∃ s h,
    exec TenantAccess.small.step TenantAccess.start escalation = some s ∧
      s.history = .deleted 100 13 :: h ∧
      Reached (fun role => role = .owner ∨ role = .admin) 100 h 13 := by
  obtain ⟨s, h, hs, hh⟩ : ∃ s h, exec TenantAccess.small.step TenantAccess.start escalation = some s ∧
      s.history = .deleted 100 13 :: h := ⟨_, _, rfl, rfl⟩
  exact ⟨s, h, hs, hh, (additions_and_deletions small_sound hs).2 [] h 100 13 hh⟩

/-- **An escalation**: John grants Jack a permission he does not have, and Jack, whom no chain of
additions by an `OWNER` reaches, deletes the tenant. -/
theorem admin_adds_owner : ∃ s h, exec TenantAccess.small.step TenantAccess.start escalation = some s ∧
    s.history = .deleted 100 13 :: .added 100 12 13 (some .admin) .owner :: h ∧
      ¬ tenantRolePermissions .owner ⊆ tenantRolePermissions .admin ∧
      ¬ Reached (fun role => role = .owner) 100 (.added 100 12 13 (some .admin) .owner :: h) 13 := by
  refine ⟨_, _, rfl, rfl, by decide, fun hr => ?_⟩
  cases hr with
  | added _ _ _ _ _ _ hmay => cases hmay
  | later _ _ _ hr =>
    cases hr with
    | later _ _ _ hr =>
      cases hr with
      | later _ _ _ hr => cases hr

end AccountApi

import AccountApi.Lib.Simulation
import AccountApi.Proof.TenancyMoves

/-!
# Tenants do not see each other

All tenants are in two tables, and their requests interleave. What a tenant and its requests go
through is nevertheless what they would go through alone, in tables with the rows of the tenant only,
but for one thing: a slug that another tenant has fails a request that would succeed alone.

* `advance_only`: a call on the tenant reads and writes its rows only; `advance_other`: a call on
  another tenant leaves them as they are.
* `SeesOnly`: what a state of all tenants and one of the tenant alone have in common.
* `tenant_isolation`: so every run, seen from the tenant, is a run of its own requests.
-/

namespace AccountApi

open Transition TenancyDb

/-- The tables with the rows of the tenant only. -/
def TenancyDb.only (db : TenancyDb) (T : Uuid) : TenancyDb where
  tenants := db.tenants.filter fun t => t.id = T
  memberships := db.memberships.filter fun m => m.tenantId = T

namespace TenancyDb

variable {w : TenancyWorld} {db db' : TenancyDb} {t : TenantEntity} {m : TenantMembershipEntity} {T : Uuid}

theorem findTenant_only : (db.only T).findTenant T = db.findTenant T := by
  unfold findTenant only
  rw [List.find?_filter]
  congr 1
  funext x
  simp

theorem findByTenantIdAndUserId_only (userId : Uuid) :
    (db.only T).findByTenantIdAndUserId T userId = db.findByTenantIdAndUserId T userId := by
  unfold findByTenantIdAndUserId only
  rw [List.find?_filter]
  congr 1
  funext x
  by_cases hT : x.tenantId = T <;> simp [hT]

/-- A slug that no tenant of the app has, the tenant has not. -/
theorem findByAppIdAndSlug_only {appId : Uuid} {slug : String} (h : db.findByAppIdAndSlug appId slug = none) :
    (db.only T).findByAppIdAndSlug appId slug = none := by
  unfold findByAppIdAndSlug at h ⊢
  rw [List.find?_eq_none] at h ⊢
  exact fun x hx => h x (List.mem_filter.1 hx).1

theorem saveTenant_only (ht : t.id = T) (h : db.saveTenant w t = some db') :
    (db.only T).saveTenant w t = some (db'.only T) := by
  obtain ⟨happ, hmemberships, hup⟩ := saveTenant_some h
  have hkey : ∀ x ∈ db.tenants, x.id = t.id → decide (x.id = T) = decide (t.id = T) := by
    intro x _ hx
    rw [hx]
  have hrow : (db.only T).tenants = db.tenants.filter fun t => t.id = T := rfl
  rw [saveTenant, if_pos happ, hrow, Table.upsert_filter hkey (by simpa using ht) hup]
  simp only [Option.map_some, only, hmemberships]

theorem saveTenant_other (ht : t.id ≠ T) (h : db.saveTenant w t = some db') : db'.only T = db.only T := by
  obtain ⟨-, hmemberships, hup⟩ := saveTenant_some h
  have hkey : ∀ x ∈ db.tenants, x.id = t.id → decide (x.id = T) = decide (t.id = T) := by
    intro x _ hx
    rw [hx]
  simp only [only, hmemberships, Table.filter_upsert_outside hkey (by simpa using ht) hup]

/-- A membership with the id is one of the tenant. -/
def Homed (db : TenancyDb) (id T : Uuid) : Prop := ∀ x ∈ db.memberships, x.id = id → x.tenantId = T

theorem Homed.key (h : db.Homed m.id m.tenantId) (T : Uuid) :
    ∀ x ∈ db.memberships, x.id = m.id → decide (x.tenantId = T) = decide (m.tenantId = T) := by
  intro x hx hid
  rw [h x hx hid]

theorem saveMembership_only (hm : m.tenantId = T) (hhome : db.Homed m.id T) :
    (db.only T).saveMembership w m = (db.saveMembership w m).map (·.only T) := by
  subst hm
  have hfk : ((db.only m.tenantId).findTenant m.tenantId).isSome = (db.findTenant m.tenantId).isSome := by
    rw [findTenant_only]
  unfold saveMembership
  rw [hfk]
  split
  · have hrow : (db.only m.tenantId).memberships = db.memberships.filter fun x => x.tenantId = m.tenantId := rfl
    rw [hrow]
    cases hup : Table.upsert (·.id) (fun x m => x.tenantId = m.tenantId && x.userId = m.userId)
        db.memberships m with
    | some out => rw [Table.upsert_filter (hhome.key _) (by simp) hup]; rfl
    | none =>
      rw [Table.upsert_filter_none (fun x _ hclash => ?_) hup]
      · rfl
      · obtain ⟨htenant, -⟩ := Bool.and_eq_true_iff.1 hclash
        exact htenant
  · rfl

theorem saveMembership_other (hm : m.tenantId ≠ T) (hhome : db.Homed m.id m.tenantId)
    (h : db.saveMembership w m = some db') : db'.only T = db.only T := by
  obtain ⟨-, htenants, hup⟩ := saveMembership_some h
  simp only [only, htenants, Table.filter_upsert_outside (hhome.key T) (by simpa using hm) hup]

theorem deleteAllByTenantId_only : (db.deleteAllByTenantId T).only T = (db.only T).deleteAllByTenantId T := by
  simp only [only, deleteAllByTenantId, List.filter_filter, Bool.and_comm]

theorem deleteAllByTenantId_other {id : Uuid} (hid : id ≠ T) : (db.deleteAllByTenantId id).only T = db.only T := by
  simp only [only, deleteAllByTenantId, List.filter_filter]
  congr 1
  refine List.filter_congr fun x _ => ?_
  by_cases hx : x.tenantId = T <;> simp [hx, hid.symm]

theorem deleteTenant_only : (db.deleteTenant T).only T = (db.only T).deleteTenant T := by
  simp only [only, deleteTenant, List.filter_filter, Bool.and_comm]

theorem deleteTenant_other {id : Uuid} (hid : id ≠ T) : (db.deleteTenant id).only T = db.only T := by
  simp only [only, deleteTenant, List.filter_filter]
  congr 1
  · refine List.filter_congr fun x _ => ?_
    by_cases hx : x.id = T <;> simp [hx, hid.symm]
  · refine List.filter_congr fun x _ => ?_
    by_cases hx : x.tenantId = T <;> simp [hx, hid.symm]

end TenancyDb

/-- The tenant of a request: the one it names, or creates. -/
def TenancyRequest.subject (r : TenancyRequest) (new : NewTenancyIds) : Uuid := r.tenantId.getD new.tenantId

/-- The request saves a tenant, whose slug another one can have. -/
def TenancyRequest.claimsSlug : TenancyRequest → Bool
  | create _ | update _ => true
  | _ => false

/-- The request has a call to make. -/
def TenancyRequest.calls : TenancyRequest → TenancyPhase → Bool
  | create _, .received | create _, .appExists | create _, .slugAvailable | create _, .tenantSaved _ => true
  | update _, .received | update _, .slugUnchecked _ | update _, .checked _ => true
  | addMember _, .received | addMember _, .tenantExists | addMember _, .userFound _ => true
  | addMember _, .membershipAvailable _ => true
  | delete _, .received | delete _, .loaded _ | delete _, .ownerAsserted _ => true
  | delete _, .membershipsDeleted _ => true
  | _, _ => false

/-- The phase without what a slug conflict tells of another tenant. -/
def TenancyPhase.masked : TenancyPhase → TenancyPhase
  | failed (.tenantSlugAlreadyExists _ _) => failed .queryFailed
  | p => p

section
variable {w : TenancyWorld} {new : NewTenancyIds} {now : Date} {db db' : TenancyDb} {r : TenancyRequest}
  {p p' : TenancyPhase} {T : Uuid}

theorem advance_calls {q : TenancyDb × TenancyPhase} (h : db.advance w new now r p = some q) : r.calls p = true := by
  unfold TenancyDb.advance at h
  split at h
  case h_16 => cases h
  all_goals rfl

/-- Whether there is a next call does not depend on the tables. -/
theorem advance_isSome (h : r.calls p = true) : (db.advance w new now r p).isSome = true := by
  cases r <;> cases p <;> first | (cases h; done) | rfl | skip
  all_goals unfold TenancyDb.advance
  case update.received => dsimp only; split <;> [rfl; (split <;> rfl)]
  all_goals dsimp only; split <;> rfl

/-- **A call on the tenant** does the same in the tables with the rows of the tenant only, or the slug it
saves is one of another tenant. -/
theorem advance_only (hT : r.subject new = T) (hhome : db.Homed new.membershipId T)
    (hp : ∀ u, p.tenant = some u → u.primitives.id = T) (h : db.advance w new now r p = some (db', p')) :
    (db.only T).advance w new now r p = some (db'.only T, p'.masked) ∨
      (r.claimsSlug = true ∧ db' = db ∧ p'.masked = .failed .queryFailed) := by
  unfold TenancyDb.advance at h
  split at h
  case h_16 => cases h
  -- CreateTenant
  · split at h <;> cases h <;> rename_i happ <;>
      exact Or.inl (by simp only [TenancyDb.advance, happ]; rfl)
  · split at h <;> cases h
    · exact Or.inr ⟨rfl, rfl, rfl⟩
    · rename_i hnone
      exact Or.inl (by simp only [TenancyDb.advance, findByAppIdAndSlug_only hnone]; rfl)
  · dsimp only at h
    split at h <;> cases h
    · rename_i hsave
      exact Or.inl (by simp only [TenancyDb.advance, saveTenant_only hT hsave]; rfl)
    · exact Or.inr ⟨rfl, rfl, rfl⟩
  · rename_i c u
    have hrow := saveMembership_only (w := w) (m := ⟨new.membershipId, u.primitives.id, c.creatorUserId, .owner, now, now⟩)
      (hp u rfl) hhome
    split at h <;> cases h <;> rename_i hsave <;> rw [hsave] at hrow <;>
      exact Or.inl (by simp only [TenancyDb.advance, hrow]; rfl)
  -- UpdateTenant
  · rename_i c
    obtain rfl : c.tenantId = T := hT
    split at h
    · rename_i hnone
      cases h
      exact Or.inl (by simp only [TenancyDb.advance, findTenant_only, hnone]; rfl)
    · rename_i t ht
      split at h <;> cases h <;> rename_i hslug <;>
        exact Or.inl (by simp only [TenancyDb.advance, findTenant_only, ht, hslug]; rfl)
  · dsimp only at h
    split at h <;> cases h
    · exact Or.inr ⟨rfl, rfl, rfl⟩
    · rename_i hnone
      exact Or.inl (by simp only [TenancyDb.advance, findByAppIdAndSlug_only hnone]; rfl)
  · rename_i c u
    have hid : (u.update c.name c.slug now).primitives.id = T := by
      rw [TenantAggregate.update_primitives]
      exact hp u rfl
    split at h <;> cases h
    · rename_i hsave
      exact Or.inl (by simp only [TenancyDb.advance, saveTenant_only hid hsave]; rfl)
    · exact Or.inr ⟨rfl, rfl, rfl⟩
  -- AddTenantMember
  · rename_i c
    obtain rfl : c.tenantId = T := hT
    split at h <;> cases h <;> rename_i htenant <;>
      exact Or.inl (by simp only [TenancyDb.advance, findTenant_only, htenant]; rfl)
  · split at h <;> cases h <;> rename_i huser <;>
      exact Or.inl (by simp only [TenancyDb.advance, huser]; rfl)
  · rename_i c userId
    obtain rfl : c.tenantId = T := hT
    split at h <;> cases h <;> rename_i hmember <;>
      exact Or.inl (by simp only [TenancyDb.advance, findByTenantIdAndUserId_only, hmember]; rfl)
  · rename_i c userId
    have hrow := saveMembership_only (w := w) (m := ⟨new.membershipId, c.tenantId, userId, c.role, now, now⟩) hT hhome
    split at h <;> cases h <;> rename_i hsave <;> rw [hsave] at hrow <;>
      exact Or.inl (by simp only [TenancyDb.advance, hrow]; rfl)
  -- DeleteTenant
  · rename_i c
    obtain rfl : c.tenantId = T := hT
    split at h <;> cases h <;> rename_i htenant <;>
      exact Or.inl (by simp only [TenancyDb.advance, findTenant_only, htenant]; rfl)
  · rename_i c u
    obtain rfl : c.tenantId = T := hT
    split at h <;> cases h <;> rename_i howner <;>
      exact Or.inl (by simp only [TenancyDb.advance, findByTenantIdAndUserId_only, howner]; rfl)
  · rename_i c u
    obtain rfl : c.tenantId = T := hT
    cases h
    rw [deleteAllByTenantId_only]
    exact Or.inl rfl
  · rename_i c u
    obtain rfl : u.primitives.id = T := hp u rfl
    cases h
    rw [deleteTenant_only]
    exact Or.inl rfl

theorem TenancyMove.subject {fails : Bool} (hm : TenancyMove w new now db fails db' r p p')
    (hp : ∀ u, p.tenant = some u → u.primitives.id = r.subject new) :
    ∀ u, p'.tenant = some u → u.primitives.id = r.subject new := by
  intro u hu
  cases hm with
  | saveTenant => cases hu; rfl
  | loadUnchecked c t ht => cases hu; exact (findTenant_some ht).2
  | loadChecked c t ht => cases hu; exact (findTenant_some ht).2
  | load c t ht => cases hu; exact (findTenant_some ht).2
  | checkSlug c t => exact hp u hu
  | assertOwner c t => cases hu; exact hp t rfl
  | deleteMemberships c t => exact hp u hu
  | _ => cases hu

/-- A membership that a call adds is one of its tenant. -/
theorem TenancyMove.homed {fails : Bool} (hm : TenancyMove w new now db fails db' r p p')
    (hp : ∀ u, p.tenant = some u → u.primitives.id = r.subject new) {x : TenantMembershipEntity}
    (hx : x ∈ db'.memberships) :
    x ∈ db.memberships ∨ (x.id = new.membershipId ∧ x.tenantId = r.subject new) := by
  cases hm with
  | saveTenant c db' hsave => exact Or.inl ((saveTenant_some hsave).2.1 ▸ hx)
  | saveUpdate c t db' hsave => exact Or.inl ((saveTenant_some hsave).2.1 ▸ hx)
  | saveOwner c t db' hsave =>
    rcases Table.mem_upsert (saveMembership_some hsave).2.2 hx with rfl | ⟨hold, -⟩
    · exact Or.inr ⟨rfl, hp t rfl⟩
    · exact Or.inl hold
  | saveMember c u db' hsave =>
    rcases Table.mem_upsert (saveMembership_some hsave).2.2 hx with rfl | ⟨hold, -⟩
    · exact Or.inr ⟨rfl, rfl⟩
    · exact Or.inl hold
  | deleteMemberships c t => exact Or.inl (List.mem_filter.1 hx).1
  | deleteTenant c t => exact Or.inl (List.mem_filter.1 hx).1
  | _ => exact Or.inl hx

/-- **A call on another tenant** leaves the rows of the tenant as they are. -/
theorem TenancyMove.only_other {fails : Bool} (hm : TenancyMove w new now db fails db' r p p')
    (hT : r.subject new ≠ T) (hhome : db.Homed new.membershipId (r.subject new))
    (hp : ∀ u, p.tenant = some u → u.primitives.id = r.subject new) : db'.only T = db.only T := by
  cases hm with
  | saveTenant c db' hsave => exact saveTenant_other hT hsave
  | saveUpdate c t db' hsave =>
    have hid : (t.update c.name c.slug now).primitives.id = c.tenantId := by
      rw [TenantAggregate.update_primitives]
      exact hp t rfl
    exact saveTenant_other (fun heq => hT (hid.symm.trans heq)) hsave
  | saveOwner c t db' hsave =>
    have hid := hp t rfl
    refine saveMembership_other (fun heq => hT (hid.symm.trans heq)) ?_ hsave
    rwa [← hid] at hhome
  | saveMember c u db' hsave => exact saveMembership_other hT hhome hsave
  | deleteMemberships c t => exact deleteAllByTenantId_other hT
  | deleteTenant c t => exact deleteTenant_other fun heq => hT ((hp t rfl).symm.trans heq)
  | _ => rfl

theorem TenancyPhase.masked_of_calls (h : r.calls p = true) : p.masked = p := by
  cases p with
  | failed e => cases r <;> cases h
  | _ => rfl

end

section
variable {ι : Type} [DecidableEq ι] {S : Tenancy ι} {s s' t : TenancyState ι} {a b : TenancyStep ι} {T : Uuid}

/-- The tenant of the request. -/
def Tenancy.subject (S : Tenancy ι) (i : ι) : Uuid := (S.requests i).subject (S.new i)

/-- What a request holds and what it adds is of its tenant. -/
structure Tenancy.Separate (S : Tenancy ι) (s : TenancyState ι) : Prop where
  tenant : ∀ i u, (s.phase i).tenant = some u → u.primitives.id = S.subject i
  memberships : ∀ i, s.db.Homed (S.newMembershipId i) (S.subject i)

theorem separate_step (hI : S.Separate s) (h : S.step s a = some s') : S.Separate s' := by
  obtain ⟨hm, hother⟩ := tenancy_step h
  have hheld := hI.tenant a.request
  constructor
  · intro i u hu
    by_cases hi : i = a.request
    · subst hi
      exact hm.subject hheld u hu
    · rw [hother i hi] at hu
      exact hI.tenant i u hu
  · intro i m hmem hid
    rcases hm.homed hheld hmem with hold | ⟨hnew, htenant⟩
    · exact hI.memberships i m hold hid
    · have hi : i = a.request := S.newMembershipId.injective (hid.symm.trans hnew)
      subst hi
      exact htenant

/-- What a state and one of the tenant alone have in common. -/
structure Tenancy.SeesOnly (S : Tenancy ι) (T : Uuid) (s t : TenancyState ι) : Prop where
  separate : S.Separate s
  db : t.db = s.db.only T
  phase : ∀ i, t.phase i = if S.subject i = T then (s.phase i).masked else .received

/-- A step of the tenant alone: the same one, but that a statement that claims a slug may fail. It does so
only where another tenant has the slug. -/
structure Tenancy.AsAlone (S : Tenancy ι) (a b : TenancyStep ι) : Prop where
  request : b.request = a.request
  now : b.now = a.now
  fails : a.fails = true → b.fails = true
  same : (S.requests a.request).claimsSlug = false → b = a

theorem Tenancy.step_of_next {q : TenancyDb × TenancyPhase} (h : S.next s a.request a.now = some q) :
    S.step s a = some ⟨if a.fails then s.db else q.1,
      Function.update s.phase a.request (if a.fails then .failed .queryFailed else q.2)⟩ := by
  rw [Tenancy.step, h]
  cases a.fails <;> rfl

theorem tenant_unwinds (S : Tenancy ι) (T : Uuid) :
    Unwinds S.step S.step (S.SeesOnly T) (fun a => S.subject a.request = T) S.AsAlone where
  hidden s t a s' hv hR hstep := by
    have hne : S.subject a.request ≠ T := by simpa using hv
    obtain ⟨hm, hother⟩ := tenancy_step hstep
    refine ⟨separate_step hR.separate hstep, ?_, fun i => ?_⟩
    · rw [hR.db]
      exact (hm.only_other hne (hR.separate.memberships _) (hR.separate.tenant _)).symm
    · rw [hR.phase]
      by_cases hi : i = a.request
      · rw [if_neg (hi ▸ hne), if_neg (hi ▸ hne)]
      · rw [hother i hi]
  shown s t a s' hv hR hstep := by
    have hT : S.subject a.request = T := by simpa using hv
    have hsep := separate_step hR.separate hstep
    obtain ⟨⟨db', p'⟩, hnext, rfl⟩ := Option.map_eq_some_iff.1 hstep
    have hcalls := advance_calls hnext
    have hp : t.phase a.request = s.phase a.request := by
      rw [hR.phase, if_pos hT, TenancyPhase.masked_of_calls hcalls]
    have hphase : ∀ q, ∀ i, Function.update t.phase a.request q.masked i =
        if S.subject i = T then (Function.update s.phase a.request q i).masked else .received := by
      intro q i
      by_cases hi : i = a.request
      · subst hi
        rw [Function.update_self, Function.update_self, if_pos hT]
      · rw [Function.update_of_ne hi, Function.update_of_ne hi]
        exact hR.phase i
    -- a statement that fails, of the request alone
    have hfail : ∃ t', S.step t { a with fails := true } = some t' ∧ t'.db = t.db ∧
        t'.phase = Function.update t.phase a.request (.failed .queryFailed) := by
      have hsome : (S.next t a.request a.now).isSome = true := by
        rw [Tenancy.next, hp]
        exact advance_isSome hcalls
      obtain ⟨q, hq⟩ := Option.isSome_iff_exists.1 hsome
      exact ⟨_, Tenancy.step_of_next (a := { a with fails := true }) hq, rfl, rfl⟩
    obtain ⟨t₁, ht₁, hdb₁, hphase₁⟩ := hfail
    cases hf : a.fails with
    | true =>
      simp only [hf, ↓reduceIte] at hsep ⊢
      have ha : { a with fails := true } = a := by rw [← hf]
      refine ⟨{ a with fails := true }, t₁, ⟨rfl, rfl, fun _ => rfl, fun _ => ha⟩, ht₁, hsep,
        hdb₁.trans hR.db, fun i => ?_⟩
      rw [hphase₁]
      exact hphase (.failed .queryFailed) i
    | false =>
      simp only [hf, Bool.false_eq_true, ↓reduceIte] at hsep ⊢
      rcases advance_only hT (hT ▸ hR.separate.memberships _) (hT ▸ hR.separate.tenant _) hnext with
        hsame | ⟨hslug, hdb, hconflict⟩
      · have hnext₁ : S.next t a.request a.now = some (db'.only T, p'.masked) := by
          rw [Tenancy.next, hR.db, hp]
          exact hsame
        refine ⟨a, _, ⟨rfl, rfl, id, fun _ => rfl⟩, Tenancy.step_of_next hnext₁, hsep, ?_, fun i => ?_⟩
        · rw [if_neg (by simp [hf])]
        · simp only [hf]
          exact hphase p' i
      · refine ⟨{ a with fails := true }, t₁, ⟨rfl, rfl, fun _ => rfl, fun hno => ?_⟩, ht₁, hsep, ?_, fun i => ?_⟩
        · rw [hslug] at hno
          cases hno
        · rw [hdb₁, hR.db, hdb]
        · rw [hphase₁, ← hconflict]
          exact hphase p' i

/-- **Tenants do not see each other.** In every run of any requests on any tenants, interleaved call by call
and failing anywhere, the rows of a tenant and the phases of its requests are those of a run of these requests
alone, in tables with the rows of the tenant only: with the same calls at the same times, but that a
statement of CreateTenant or UpdateTenant may fail where a slug of another tenant fails it. -/
theorem tenant_isolation (S : Tenancy ι) (T : Uuid) {db : TenancyDb} {as : List (TenancyStep ι)}
    (hids : ∀ i, ∀ m ∈ db.memberships, m.id ≠ S.newMembershipId i)
    (h : exec S.step (Tenancy.start db) as = some s) :
    ∃ bs t, List.Forall₂ S.AsAlone (as.filter fun a => S.subject a.request = T) bs ∧
      exec S.step (Tenancy.start (db.only T)) bs = some t ∧ t.db = s.db.only T ∧
      ∀ i, t.phase i = if S.subject i = T then (s.phase i).masked else .received := by
  have hstart : S.SeesOnly T (Tenancy.start db) (Tenancy.start (db.only T)) := by
    refine ⟨⟨fun i u hu => ?_, fun i m hm hid => absurd hid (hids i m hm)⟩, rfl, fun i => ?_⟩
    · cases hu
    by_cases hi : S.subject i = T
    · rw [if_pos hi]; rfl
    · rw [if_neg hi]; rfl
  obtain ⟨bs, t, hbs, ht, hR⟩ := (tenant_unwinds S T).run hstart h
  exact ⟨bs, t, hbs, ht, hR.db, hR.phase⟩

end

/-- John creates Globex while Jane renames tenant 7 to the same slug and adds John to it. -/
def sharedSlug : Tenancy (Fin 3) :=
  Tenancy.small ![.create ⟨1, "Globex", "globex", 12⟩, .update ⟨7, none, some "globex"⟩,
    .addMember ⟨7, "john@example.com", .member⟩]

/-- The update of tenant 7 loses its slug to the other tenant: alone, its statement would have failed. -/
theorem tenant_isolation_shared_slug : ∃ s,
    exec sharedSlug.step (Tenancy.start TenancyDb.small)
        ([0, 0, 1, 2, 0, 1, 2, 0, 2, 2].map fun i => ⟨i, false, .millis 1⟩) = some s ∧
      s.phase 0 = .succeeded ∧ s.phase 1 = .failed (.tenantSlugAlreadyExists "globex" 1) ∧
      ∃ bs t, List.Forall₂ sharedSlug.AsAlone
          (([0, 0, 1, 2, 0, 1, 2, 0, 2, 2].map fun i => ⟨i, false, .millis 1⟩).filter
            fun a => sharedSlug.subject a.request = 7) bs ∧
        exec sharedSlug.step (Tenancy.start (TenancyDb.small.only 7)) bs = some t ∧ t.db = s.db.only 7 ∧
        ∀ i, t.phase i = if sharedSlug.subject i = 7 then (s.phase i).masked else .received := by
  obtain ⟨s, hs, hcreated, hlost⟩ : ∃ s, exec sharedSlug.step (Tenancy.start TenancyDb.small)
        ([0, 0, 1, 2, 0, 1, 2, 0, 2, 2].map fun i => ⟨i, false, .millis 1⟩) = some s ∧
      s.phase 0 = .succeeded ∧ s.phase 1 = .failed (.tenantSlugAlreadyExists "globex" 1) :=
    ⟨_, rfl, by decide, by decide⟩
  refine ⟨s, hs, hcreated, hlost, tenant_isolation sharedSlug 7 (fun i m hm => ?_) hs⟩
  obtain rfl := List.mem_singleton.1 hm
  match i with
  | 0 | 1 | 2 => decide

end AccountApi

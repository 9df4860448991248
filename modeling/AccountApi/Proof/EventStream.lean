import AccountApi.Spec.Database
import AccountApi.Proof.Aggregates
import AccountApi.Proof.TenancyMoves

/-!
# What the event stream determines

Every save of a handler is a `put` of the row, and the events of its aggregate put the
same row. `DeleteTenant` removes the rows of the members by one statement that goes
past their aggregates, so a subscriber keeps them.

* `execute_membershipEffect`: what one command does to the membership rows, and what its
  events do to any other list of them.
* `executeAll_replay`: over a sequence of commands, the replayed rows outnumber the
  stored ones by more with every deletion.
* `replay_sameRows_iff`: **the published events determine the tables exactly when no
  tenant was deleted.**
-/

namespace AccountApi

open Sourced

variable {k : Kit} {b b' : Database} {d : Draws} {es : List DomainEvent}

/-- What a command that succeeds found, wrote and published. -/
inductive Written (k : Kit) (b : Database) (d : Draws) :
    WriteCommand → Database → List DomainEvent → Prop
  | createApp (c) (apps) : appBySlug b.apps c.slug = none →
      saveApp b.apps ⟨d.id, c.slug, c.name, d.now, d.now⟩ = some apps →
      Written k b d (.createApp c) { b with apps } [.app (.created ⟨d.id, c.slug, c.name, d.now, d.now⟩)]
  | createUser (c) (u) (users) : userByEmail b.users c.email = none → c.build k d.id d.now = some u →
      saveUser b.users u = some users →
      Written k b d (.createUser c) { b with users } [.user (.registered u)]
  | adminKept (c) (u) : userById b.users c.userId = some u → u.platformAdmin = c.platformAdmin →
      Written k b d (.setUserPlatformAdmin c) b []
  | adminSet (c) (u) (users) : userById b.users c.userId = some u → u.platformAdmin ≠ c.platformAdmin →
      saveUser b.users (u.toAggregate.update ⟨none, none, some c.platformAdmin⟩ d.now).primitives =
        some users →
      Written k b d (.setUserPlatformAdmin c) { b with users }
        ((u.toAggregate.update ⟨none, none, some c.platformAdmin⟩ d.now).events.map .user)
  | createTenant (c) (db db') : b.world.apps.contains c.appId = true →
      b.tenancy.findByAppIdAndSlug c.appId c.slug = none →
      b.tenancy.saveTenant b.world (c.tenant d.id d.now).primitives = some db →
      db.saveMembership b.world
        ⟨d.membershipId, d.id, c.creatorUserId, .owner, d.membershipNow, d.membershipNow⟩ = some db' →
      Written k b d (.createTenant c) { b with tenancy := db' }
        [.tenant (.created (c.tenant d.id d.now).primitives), .membership (.created
          ⟨d.membershipId, d.id, c.creatorUserId, .owner, d.membershipNow, d.membershipNow⟩)]
  | updateTenant (c) (t) (db) : b.tenancy.findTenant c.tenantId = some t →
      c.slug.all (fun slug =>
        slug = t.slug || (b.tenancy.findByAppIdAndSlug t.appId slug).isNone) = true →
      b.tenancy.saveTenant b.world (t.toAggregate.update c.name c.slug d.now).primitives = some db →
      Written k b d (.updateTenant c) { b with tenancy := db }
        ((t.toAggregate.update c.name c.slug d.now).events.map .tenant)
  | addTenantMember (c) (t) (u) (db) : b.tenancy.findTenant c.tenantId = some t →
      b.world.findUserIdByEmail c.email = some u →
      b.tenancy.findByTenantIdAndUserId c.tenantId u = none →
      b.tenancy.saveMembership b.world ⟨d.membershipId, c.tenantId, u, c.role, d.now, d.now⟩ = some db →
      Written k b d (.addTenantMember c) { b with tenancy := db }
        [.membership (.created ⟨d.membershipId, c.tenantId, u, c.role, d.now, d.now⟩)]
  | deleteTenant (c) (t) : b.tenancy.findTenant c.tenantId = some t →
      (b.tenancy.findByTenantIdAndUserId c.tenantId c.requesterUserId).any (·.isOwner) = true →
      Written k b d (.deleteTenant c)
        { b with tenancy := (b.tenancy.deleteAllByTenantId c.tenantId).deleteTenant t.id }
        [.tenant (.deleted t)]

theorem guard_some {p : Prop} [Decidable p] {u : Unit} (h : guard p = some u) : p := by
  by_contra hp
  rw [guard, if_neg hp] at h
  cases h

theorem execute_written {c : WriteCommand} (h : b.execute k d c = some (b', es)) : Written k b d c b' es := by
  cases c with
  | createApp c =>
    simp only [Database.execute, Database.createApp, Option.bind_eq_bind, Option.bind_eq_some_iff] at h
    obtain ⟨_, hfree, apps, hsave, hout⟩ := h
    cases hout
    exact .createApp c apps (Option.isNone_iff_eq_none.1 (guard_some hfree)) hsave
  | createUser c =>
    simp only [Database.execute, Database.createUser, Option.bind_eq_bind, Option.bind_eq_some_iff] at h
    obtain ⟨_, hfree, u, hbuild, users, hsave, hout⟩ := h
    cases hout
    exact .createUser c u users (Option.isNone_iff_eq_none.1 (guard_some hfree)) hbuild hsave
  | setUserPlatformAdmin c =>
    simp only [Database.execute, Database.setUserPlatformAdmin, Option.bind_eq_bind,
      Option.bind_eq_some_iff] at h
    obtain ⟨u, hu, h⟩ := h
    split at h
    · cases h
      exact .adminKept c u hu ‹_›
    · simp only [Option.bind_eq_some_iff] at h
      obtain ⟨users, hsave, hout⟩ := h
      cases hout
      exact .adminSet c u users hu ‹_› hsave
  | createTenant c =>
    simp only [Database.execute, Database.createTenant, Option.bind_eq_bind, Option.bind_eq_some_iff] at h
    obtain ⟨_, happ, _, hfree, db, hsave, db', hmember, hout⟩ := h
    cases hout
    exact .createTenant c db db' (guard_some happ) (Option.isNone_iff_eq_none.1 (guard_some hfree)) hsave
      hmember
  | updateTenant c =>
    simp only [Database.execute, Database.updateTenant, Option.bind_eq_bind, Option.bind_eq_some_iff] at h
    obtain ⟨t, ht, _, hslug, db, hsave, hout⟩ := h
    cases hout
    exact .updateTenant c t db ht (guard_some hslug) hsave
  | addTenantMember c =>
    simp only [Database.execute, Database.addTenantMember, Option.bind_eq_bind,
      Option.bind_eq_some_iff] at h
    obtain ⟨t, ht, u, hu, _, hfree, db, hsave, hout⟩ := h
    cases hout
    exact .addTenantMember c t u db ht hu (Option.isNone_iff_eq_none.1 (guard_some hfree)) hsave
  | deleteTenant c =>
    simp only [Database.execute, Database.deleteTenant, Option.bind_eq_bind, Option.bind_eq_some_iff] at h
    obtain ⟨t, ht, _, howner, hout⟩ := h
    cases hout
    exact .deleteTenant c t ht (guard_some howner)

/-! ## The handlers of the `tenancy` context are those of its system -/

def WriteCommand.request : WriteCommand → Option TenancyRequest
  | createTenant c => some (.create c)
  | updateTenant c => some (.update c)
  | addTenantMember c => some (.addMember c)
  | deleteTenant c => some (.delete c)
  | _ => none

section
variable {w : TenancyWorld} {new : NewTenancyIds} {now : Date} {r : TenancyRequest} {n : ℕ}
  {db db' : TenancyDb}

theorem complete_call {p : TenancyPhase} {q : TenancyDb × TenancyPhase}
    (h : db.advance w new now r p = some q) :
    TenancyDb.complete w new now r (n + 1) (db, p) = TenancyDb.complete w new now r n q := by
  rw [TenancyDb.complete]
  simp only [h]

theorem complete_last {p : TenancyPhase} (h : db.advance w new now r p = some (db', .succeeded)) :
    TenancyDb.complete w new now r (n + 1) (db, p) = (db', .succeeded) := by
  rw [complete_call h]
  cases n with
  | zero => rfl
  | succ n => cases r <;> rfl

end

/-- **A command that succeeds** makes the calls of its request in the system of `Spec.Tenancy`. -/
theorem execute_refines {c : WriteCommand} {r : TenancyRequest} (h : b.execute k d c = some (b', es))
    (hr : c.request = some r) (hnow : d.membershipNow = d.now) :
    b.tenancy.execute b.world ⟨d.id, d.membershipId⟩ d.now r = (b'.tenancy, .succeeded) := by
  unfold TenancyDb.execute
  cases execute_written h with
  | createApp | createUser | adminKept | adminSet => cases hr
  | createTenant c db db' happ hfree hsave hmember =>
    cases hr
    rw [hnow] at hmember
    rw [complete_call (by simp only [TenancyDb.advance, happ]; rfl),
      complete_call (by simp only [TenancyDb.advance, hfree]; rfl),
      complete_call (by simp only [TenancyDb.advance, hsave]; rfl)]
    exact complete_last (by
      simp only [TenancyDb.advance, CreateTenantCommand.tenant_primitives, hmember])
  | updateTenant c t db ht hslug hsave =>
    cases hr
    have hlast : ∀ n, TenancyDb.complete b.world ⟨d.id, d.membershipId⟩ d.now (.update c) (n + 1)
        (b.tenancy, .checked t.toAggregate) = (db, .succeeded) := fun n =>
      complete_last (by simp only [TenancyDb.advance, hsave])
    cases hany : c.slug.any fun slug => slug ≠ t.slug with
    | false =>
      rw [complete_call (by simp only [TenancyDb.advance, ht, hany]; rfl)]
      exact hlast 2
    | true =>
      obtain ⟨slug, hc, hne⟩ := (Option.any_eq_true _ _).1 hany
      have hfree : b.tenancy.findByAppIdAndSlug t.appId slug = none := by
        have hslug' : (slug = t.slug || (b.tenancy.findByAppIdAndSlug t.appId slug).isNone) = true := by
          simpa only [hc, Option.all_some] using hslug
        rcases (Bool.or_eq_true _ _).mp hslug' with hsame | hnone
        · exact absurd (of_decide_eq_true hsame) (of_decide_eq_true hne)
        · exact Option.isNone_iff_eq_none.1 hnone
      rw [complete_call (by simp only [TenancyDb.advance, ht, hany]; rfl),
        complete_call (by
          simp only [TenancyDb.advance, TenantEntity.toAggregate_primitives, hc, Option.getD_some, hfree]
          rfl)]
      exact hlast 1
  | addTenantMember c t u db ht hu hfree hsave =>
    cases hr
    rw [complete_call (by simp only [TenancyDb.advance, ht]; rfl),
      complete_call (by simp only [TenancyDb.advance, hu]; rfl),
      complete_call (by simp only [TenancyDb.advance, hfree]; rfl)]
    exact complete_last (by simp only [TenancyDb.advance, hsave])
  | deleteTenant c t ht howner =>
    cases hr
    rw [complete_call (by simp only [TenancyDb.advance, ht]; rfl),
      complete_call (by simp only [TenancyDb.advance, howner]; rfl), complete_call rfl]
    exact complete_last rfl

namespace Database

/-- The tables with other membership rows. -/
def withMemberships (b : Database) (rows : List TenantMembershipEntity) : Database :=
  { b with tenancy.memberships := rows }

def replayAll (b : Database) (es : List DomainEvent) : Database := es.foldl replay b

theorem replayAll_append (es es' : List DomainEvent) :
    b.replayAll (es ++ es') = (b.replayAll es).replayAll es' := List.foldl_append

theorem replayAll_user (es : List UserEvent) : b.replayAll (es.map .user) =
    { b with users := project (·.id) UserEvent.rowChange b.users es } := by
  induction es generalizing b with
  | nil => rfl
  | cons e es ih => exact ih (b := b.replay (.user e))

theorem replayAll_tenant (es : List TenantEvent) : b.replayAll (es.map .tenant) =
    { b with tenancy.tenants := project (·.id) TenantEvent.rowChange b.tenancy.tenants es } := by
  induction es generalizing b with
  | nil => rfl
  | cons e es ih => exact ih (b := b.replay (.tenant e))

end Database

/-- The events of a user whose flag was set put the user. -/
theorem project_userUpdate (u : UserEntity) (props : UserProps) (now : Date) (rows : List UserEntity) :
    project (·.id) UserEvent.rowChange rows (u.toAggregate.update props now).events =
      Table.put (·.id) rows (u.toAggregate.update props now).primitives := by
  have hU := userAggregate_described
  refine hU.project_update u.toAggregate _ rfl ?_ (fun _ => rfl) (fun e he => ?_) rows
  case refine_1 =>
    by_cases h : UserAggregate.updatable.announced (UserAggregate.updatable.primitives u.toAggregate) props = []
    · rw [hU.untouched _ _ now h]
    · rw [hU.touched _ _ now h]; rfl
  case refine_2 =>
    simp only [UserAggregate.updatable, List.mem_append] at he
    rcases he with (he | he) | he <;> obtain ⟨v, rfl⟩ := Field.mem_announced he
    all_goals
      refine ⟨_, rfl, fun x => ⟨?_, fun hne => if_neg hne⟩⟩
      dsimp only [UserEntity.emailField, UserEntity.displayNameField, UserEntity.platformAdminField,
        UserEvent.replay]
      split <;> rfl

/-- The events of an updated tenant put the tenant. -/
theorem project_tenantUpdate (t : TenantEntity) (name slug : Option String) (now : Date)
    (rows : List TenantEntity) :
    project (·.id) TenantEvent.rowChange rows (t.toAggregate.update name slug now).events =
      Table.put (·.id) rows (t.toAggregate.update name slug now).primitives := by
  refine tenantAggregate_described.project_update t.toAggregate ⟨name, slug⟩ rfl ?_
    (fun _ => rfl) (fun e he => ?_) rows
  case refine_1 =>
    simp only [TenantAggregate.updatable]
    rw [TenantAggregate.update_primitives]
  case refine_2 =>
    simp only [TenantAggregate.updatable, List.mem_append] at he
    rcases he with he | he <;> obtain ⟨v, rfl⟩ := Field.mem_announced he
    all_goals
      refine ⟨_, rfl, fun x => ⟨?_, fun hne => if_neg hne⟩⟩
      dsimp only [TenantEntity.nameField, TenantEntity.slugField, TenantEvent.replay]
      split <;> rfl

/-- What a command does to the membership rows (`deletes`: it is a `DeleteTenant`), and its events to
those of a subscriber. -/
inductive MembershipEffect (d : Draws) (ms : List TenantMembershipEntity) :
    Bool → List TenantMembershipEntity → (List TenantMembershipEntity → List TenantMembershipEntity) →
      Prop
  | same : MembershipEffect d ms false ms id
  | add (m) : m.id = d.membershipId →
      MembershipEffect d ms false (Table.put (·.id) ms m) (fun rows => Table.put (·.id) rows m)
  | delete (ms') : ms' ⊆ ms → ms'.length < ms.length → MembershipEffect d ms true ms' id

theorem saveTenant_put {w : TenancyWorld} {db db' : TenancyDb} {t : TenantEntity}
    (h : db.saveTenant w t = some db') : db' = { db with tenants := Table.put (·.id) db.tenants t } := by
  obtain ⟨-, hm, hup⟩ := TenancyDb.saveTenant_some h
  cases db'
  cases hm
  exact congrArg (fun tenants => { db with tenants }) (Table.upsert_put hup)

theorem saveMembership_put {w : TenancyWorld} {db db' : TenancyDb} {m : TenantMembershipEntity}
    (h : db.saveMembership w m = some db') :
    db' = { db with memberships := Table.put (·.id) db.memberships m } := by
  obtain ⟨-, ht, hup⟩ := TenancyDb.saveMembership_some h
  cases db'
  cases ht
  exact congrArg (fun memberships => { db with memberships }) (Table.upsert_put hup)

/-- **One command**: its events give a subscriber the tables after it, but for the membership rows. -/
theorem execute_membershipEffect {c : WriteCommand} (h : b.execute k d c = some (b', es)) :
    ∃ f, MembershipEffect d b.tenancy.memberships c.isDeleteTenant b'.tenancy.memberships f ∧
      ∀ rows, (b.withMemberships rows).replayAll es = b'.withMemberships (f rows) := by
  cases execute_written h with
  | createApp c apps hfree hsave =>
    rw [Table.upsert_put hsave]
    exact ⟨id, .same, fun rows => rfl⟩
  | createUser c u users hfree hbuild hsave =>
    rw [Table.upsert_put hsave]
    exact ⟨id, .same, fun rows => rfl⟩
  | adminKept => exact ⟨id, .same, fun rows => rfl⟩
  | adminSet c u users hu hne hsave =>
    rw [Table.upsert_put hsave]
    refine ⟨id, .same, fun rows => ?_⟩
    rw [Database.replayAll_user, project_userUpdate]
    rfl
  | createTenant c db db' happ hfree hsave hmember =>
    rw [saveMembership_put hmember, saveTenant_put hsave]
    exact ⟨_, .add _ rfl, fun rows => rfl⟩
  | updateTenant c t db ht hslug hsave =>
    rw [saveTenant_put hsave]
    refine ⟨id, .same, fun rows => ?_⟩
    rw [Database.replayAll_tenant, project_tenantUpdate]
    rfl
  | addTenantMember c t u db ht hu hfree hsave =>
    rw [saveMembership_put hsave]
    exact ⟨_, .add _ rfl, fun rows => rfl⟩
  | deleteTenant c t ht howner =>
    refine ⟨id, .delete _ ?_ ?_, fun rows => rfl⟩
    · exact List.Subset.trans (List.filter_subset_self _) (List.filter_subset_self _)
    · -- the owner who asks is a member, whose row goes
      obtain ⟨m, hm, -⟩ := (Option.any_eq_true _ _).1 howner
      have hmem := List.mem_of_find?_eq_some hm
      have htenant : m.tenantId = c.tenantId := by
        have hkey := List.find?_some hm
        simp only [Bool.and_eq_true, decide_eq_true_eq] at hkey
        exact hkey.1
      have hlt : (b.tenancy.memberships.filter fun m => m.tenantId ≠ c.tenantId).length <
          b.tenancy.memberships.length :=
        List.length_filter_lt_length_iff_exists.2 ⟨m, hmem, by simp [htenant]⟩
      exact lt_of_le_of_lt (List.length_filter_le _ _) hlt

/-- How the stored membership rows and those of a subscriber change together: the subscriber's
outnumber the stored ones by more with a deletion, and without one equal rows stay equal. -/
structure Kept (deletes : Prop) (ms rows ms' rows' : List TenantMembershipEntity) : Prop where
  sub : ms' ⊆ rows'
  gap : ms'.length + rows.length ≤ rows'.length + ms.length
  grows : deletes → ms'.length + rows.length < rows'.length + ms.length
  same : ¬ deletes → ms = rows → ms' = rows'

namespace Kept

variable {D D' : Prop} {ms ms₁ ms' rows rows₁ rows' : List TenantMembershipEntity}

theorem trans (h : Kept D ms rows ms₁ rows₁) (h' : Kept D' ms₁ rows₁ ms' rows') :
    Kept (D ∨ D') ms rows ms' rows' := by
  have hgap := h.gap
  have hgap' := h'.gap
  refine ⟨h'.sub, by omega, ?_, fun hno heq => ?_⟩
  · rintro (hD | hD)
    · have := h.grows hD; omega
    · have := h'.grows hD; omega
  · exact h'.same (fun hD => hno (.inr hD)) (h.same (fun hD => hno (.inl hD)) heq)

/-- One command: a new row is added to both. -/
theorem of_effect {deletes : Bool} {f : List TenantMembershipEntity → List TenantMembershipEntity}
    (h : MembershipEffect d ms deletes ms' f) (hsub : ms ⊆ rows)
    (hnew : ∀ m ∈ rows, m.id ≠ d.membershipId) : Kept (deletes = true) ms rows ms' (f rows) := by
  cases h with
  | same => exact ⟨hsub, by simp only [id]; omega, by simp, fun _ h => h⟩
  | add m hm =>
    have hput : Table.put (·.id) rows m = rows ++ [m] := Table.put_new fun x hx => hm ▸ hnew x hx
    have hput' : Table.put (·.id) ms m = ms ++ [m] := Table.put_new fun x hx => hm ▸ hnew x (hsub hx)
    simp only [hput, hput']
    refine ⟨?_, by simp only [List.length_append]; omega, by simp, fun _ h => by rw [h]⟩
    exact List.append_subset.2 ⟨fun x hx => List.mem_append_left _ (hsub hx), List.subset_append_right _ _⟩
  | delete ms' hms hlen =>
    exact ⟨fun x hx => hsub (hms hx), by simp only [id]; omega, fun _ => by simp only [id]; omega, by simp⟩

end Kept

/-- A subscriber has no rows but those it had and the one of the command. -/
theorem MembershipEffect.mem {deletes : Bool} {ms ms' rows : List TenantMembershipEntity}
    {f : List TenantMembershipEntity → List TenantMembershipEntity}
    (h : MembershipEffect d ms deletes ms' f) (hnew : ∀ m ∈ rows, m.id ≠ d.membershipId)
    {m : TenantMembershipEntity} (hm : m ∈ f rows) : m ∈ rows ∨ m.id = d.membershipId := by
  cases h with
  | same | delete => exact Or.inl hm
  | add m' hm' =>
    have hput : Table.put (·.id) rows m' = rows ++ [m'] := Table.put_new fun x hx => hm' ▸ hnew x hx
    dsimp only at hm
    rcases List.mem_append.1 (hput ▸ hm) with hm | hm
    · exact Or.inl hm
    · rw [List.mem_singleton.1 hm]
      exact Or.inr hm'

/-- **Commands one after another**: their events give a subscriber the tables after them, but for
membership rows. -/
theorem executeAll_replay {cs : List (WriteCommand × Draws)} (rows : List TenantMembershipEntity)
    (h : b.executeAll k cs = some (b', es)) (hids : (cs.map (·.2.membershipId)).Nodup)
    (hfresh : ∀ x ∈ cs, ∀ m ∈ rows, m.id ≠ x.2.membershipId) (hsub : b.tenancy.memberships ⊆ rows) :
    ∃ rows', (b.withMemberships rows).replayAll es = b'.withMemberships rows' ∧
      Kept (∃ x ∈ cs, x.1.isDeleteTenant = true) b.tenancy.memberships rows b'.tenancy.memberships rows' := by
  induction cs generalizing b es rows with
  | nil =>
    cases h
    exact ⟨rows, rfl, hsub, by omega, by simp, fun _ h => h⟩
  | cons x cs ih =>
    obtain ⟨c, d⟩ := x
    simp only [Database.executeAll, Option.bind_eq_bind, Option.bind_eq_some_iff] at h
    obtain ⟨⟨b₁, es₁⟩, hc, ⟨b₂, es₂⟩, hcs, hout⟩ := h
    cases hout
    obtain ⟨f, heffect, hreplay⟩ := execute_membershipEffect hc
    obtain ⟨hnotin, hids⟩ := List.nodup_cons.1 hids
    have hnew : ∀ m ∈ rows, m.id ≠ d.membershipId := hfresh _ (.head _)
    have hfresh' : ∀ x ∈ cs, ∀ m ∈ f rows, m.id ≠ x.2.membershipId := by
      intro x hx m hm
      rcases heffect.mem hnew hm with hm | hm
      · exact hfresh x (.tail _ hx) m hm
      · rw [hm]
        exact fun heq => hnotin (List.mem_map.2 ⟨x, hx, heq.symm⟩)
    have hone := Kept.of_effect heffect hsub hnew
    obtain ⟨rows', hrun, hrest⟩ := ih (f rows) hcs hids hfresh' hone.sub
    refine ⟨rows', ?_, ?_⟩
    · rw [Database.replayAll_append, hreplay, hrun]
    · have hany : (∃ x ∈ (c, d) :: cs, x.1.isDeleteTenant = true) ↔
          c.isDeleteTenant = true ∨ ∃ x ∈ cs, x.1.isDeleteTenant = true := by simp
      rw [hany]
      exact hone.trans hrest

/-- **The event stream and the tables**: after commands that succeed, on empty tables, the published
events give the rows of the tables exactly when no tenant was deleted. -/
theorem replay_sameRows_iff (k : Kit) (cs : List (WriteCommand × Draws)) (b : Database)
    (es : List DomainEvent) (hids : (cs.map (·.2.membershipId)).Nodup)
    (h : Database.empty.executeAll k cs = some (b, es)) :
    (es.foldl Database.replay Database.empty).SameRows b ↔ ∀ x ∈ cs, x.1.isDeleteTenant = false := by
  obtain ⟨rows, hreplay, hkept⟩ := executeAll_replay [] h hids (by simp)
    (List.Subset.refl _)
  have hreplay' : es.foldl Database.replay Database.empty = b.withMemberships rows := hreplay
  rw [hreplay']
  constructor
  · rintro ⟨-, -, -, hperm⟩ x hx
    by_contra hdel
    have hgap := hkept.grows ⟨x, hx, by simpa using hdel⟩
    have hrows := hperm.length_eq
    simp only [Database.untimed, Database.withMemberships, List.length_map] at hrows
    simp only [Database.empty, List.length_nil] at hgap
    omega
  · intro hnone
    have hsame : b.tenancy.memberships = rows :=
      hkept.same (fun ⟨x, hx, hdel⟩ => by simp [hnone x hx] at hdel) rfl
    have hb : b.withMemberships rows = b := by
      rw [← hsame]
      rfl
    rw [hb]
    exact ⟨.refl _, .refl _, .refl _, .refl _⟩

/-- Jane's tenant of an app, renamed, with John as a member. -/
def acmeCommands : List (WriteCommand × Draws) :=
  [(.createApp ⟨"gardenia", "Gardenia"⟩, ⟨1, 101, .millis 1, .millis 1⟩),
    (.createUser ⟨"kc-jane", "jane@example.com", some "Jane"⟩, ⟨11, 102, .millis 2, .millis 2⟩),
    (.createUser ⟨"kc-john", "john@example.com", none⟩, ⟨12, 103, .millis 3, .millis 3⟩),
    (.setUserPlatformAdmin ⟨11, true⟩, ⟨0, 104, .millis 4, .millis 4⟩),
    (.createTenant ⟨1, "Acme", "acme", 11⟩, ⟨7, 105, .millis 5, .millis 6⟩),
    (.updateTenant ⟨7, some "Acme Inc", none⟩, ⟨0, 106, .millis 7, .millis 7⟩),
    (.addTenantMember ⟨7, "john@example.com", .admin⟩, ⟨0, 107, .millis 8, .millis 8⟩)]

theorem replay_sameRows_acme : ∃ b es, Database.empty.executeAll Kit.permissive acmeCommands = some (b, es) ∧
    es.length = 10 ∧ (es.foldl Database.replay Database.empty).SameRows b :=
  ⟨_, _, rfl, rfl, (replay_sameRows_iff Kit.permissive acmeCommands _ _ (by decide) rfl).2 (by decide)⟩

/-- After Jane's tenant is deleted, a subscriber still has her membership. -/
theorem ghost_membership : ∃ b es,
    Database.empty.executeAll Kit.permissive
      [(.createApp ⟨"gardenia", "Gardenia"⟩, ⟨1, 101, .millis 1, .millis 1⟩),
        (.createUser ⟨"kc-jane", "jane@example.com", some "Jane"⟩, ⟨11, 102, .millis 2, .millis 2⟩),
        (.createTenant ⟨1, "Acme", "acme", 11⟩, ⟨7, 103, .millis 3, .millis 4⟩),
        (.deleteTenant ⟨7, 11⟩, ⟨0, 104, .millis 5, .millis 5⟩)] = some (b, es) ∧
      b.tenancy.memberships = [] ∧
      (es.foldl Database.replay Database.empty).tenancy.memberships =
        [⟨103, 7, 11, .owner, .millis 4, .millis 4⟩] ∧
      ¬ (es.foldl Database.replay Database.empty).SameRows b := by
  refine ⟨_, _, rfl, rfl, rfl, ?_⟩
  rintro ⟨-, -, -, hperm⟩
  exact absurd hperm.length_eq (by decide)

end AccountApi

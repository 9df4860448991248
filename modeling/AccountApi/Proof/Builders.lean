import AccountApi.Spec.Builders

/-!
# Builders that keep nothing

Every chain sets every field of its builder, the nullable ones included, so what the
builder held before cannot show in what it builds. A row whose columns are values of
value objects is read back as it was written.

* `run_forgets`: one use does not depend on what the builders hold.
* `…_toAggregate`, `…_toViewModel`: what a mapper makes of a row of values.
* `builders_keep_nothing`: **after any earlier uses of any builders, each call site
  builds what its inputs say, aggregates round-trip, and the two ways of reading a row
  agree.**
-/

namespace AccountApi

variable {k : BuilderKit} {clock : Date}

/-- **One use** of the builders: neither what they hold nor the clock matters. -/
theorem run_forgets (site : CallSite) (clock clock' : Date) (b b' : Builders) :
    (site.run k clock b).1 = (site.run k clock' b').1 := by
  cases site <;> rfl

theorem ok_bind {ε α β : Type} (a : α) (f : α → Except ε β) : (Except.ok a >>= f) = f a := rfl

theorem required_some {α : Type} (field : String) (v : α) : required field (some v) = .ok v := rfl

theorem requiredString_some {field v : String} (h : v ≠ "") : requiredString field (some v) = .ok v := by
  rw [requiredString, Option.filter_some, if_pos (by simpa using h), required_some]

theorem valueObject_some {α : Type} (v : α) : valueObject (some v) = .ok v := rfl

theorem tenantRoleValue_value (role : TenantRoleEnum) : tenantRoleValue role.value = some role := by
  cases role <;> decide

theorem tenantRole_ne (role : TenantRoleEnum) : role.value ≠ "" := by
  cases role <;> decide

namespace BuilderKit

theorem IsValue.again {α : Type} {value : α → Option α} {v : α}
    (hagain : ∀ v w, value v = some w → value w = some w) (h : IsValue value v) : value v = some v := by
  obtain ⟨raw, h⟩ := h
  exact hagain raw v h

theorem IsValue.optional {α : Type} {value : α → Option α} {o : Option α}
    (hagain : ∀ v w, value v = some w → value w = some w) (h : ∀ v, o = some v → IsValue value v) :
    optionalObject value o = .ok o := by
  cases o with
  | none => rfl
  | some v => rw [optionalObject, (h v rfl).again hagain, valueObject_some]; rfl

/-! The columns of a row are values. -/

variable (k)

structure SessionRow (e : SessionEntity) : Prop where
  id : IsValue k.uuidValue e.id
  userId : IsValue k.uuidValue e.userId
  refreshTokenHash : IsValue k.refreshTokenHashValue e.refreshTokenHash
  refreshTokenExpiresAt : IsValue k.dateValue e.refreshTokenExpiresAt
  revokedAt : ∀ d, e.revokedAt = some d → IsValue k.dateValue d
  replacedBySessionId : ∀ id, e.replacedBySessionId = some id → IsValue k.uuidValue id
  createdAt : IsValue k.dateValue e.createdAt
  updatedAt : IsValue k.dateValue e.updatedAt

structure UserRow (e : UserEntity) : Prop where
  id : IsValue k.uuidValue e.id
  externalId : IsValue k.externalIdValue e.externalId
  email : IsValue k.emailValue e.email
  displayName : ∀ d, e.displayName = some d → IsValue k.displayNameValue d
  createdAt : IsValue k.dateValue e.createdAt
  updatedAt : IsValue k.dateValue e.updatedAt

structure TenantRow (e : TenantEntity) : Prop where
  id : IsValue k.uuidValue e.id
  appId : IsValue k.uuidValue e.appId
  name : IsValue k.nameValue e.name
  slug : IsValue k.slugValue e.slug
  createdAt : IsValue k.dateValue e.createdAt
  updatedAt : IsValue k.dateValue e.updatedAt

structure MembershipRow (e : TenantMembershipEntity) : Prop where
  id : IsValue k.uuidValue e.id
  tenantId : IsValue k.uuidValue e.tenantId
  userId : IsValue k.uuidValue e.userId
  createdAt : IsValue k.dateValue e.createdAt
  updatedAt : IsValue k.dateValue e.updatedAt

structure AppRow (e : AppEntity) : Prop where
  id : IsValue k.uuidValue e.id
  slug : IsValue k.slugValue e.slug
  name : IsValue k.nameValue e.name
  createdAt : IsValue k.dateValue e.createdAt
  updatedAt : IsValue k.dateValue e.updatedAt

end BuilderKit

open BuilderKit

theorem session_toAggregate (hk : k.Lawful) {e : SessionEntity} (he : k.SessionRow e) (b : SessionBuilder) :
    (SessionTypeOrmMapper.toAggregate k clock e b).1 = .ok e.toAggregate := by
  have hid := he.id.again hk.uuidValue_again
  have huser := he.userId.again hk.uuidValue_again
  have hhash := he.refreshTokenHash.again hk.refreshTokenHashValue_again
  have hexpires := he.refreshTokenExpiresAt.again hk.dateValue_again
  have hrevoked := IsValue.optional hk.dateValue_again he.revokedAt
  have hreplaced := IsValue.optional hk.uuidValue_again he.replacedBySessionId
  have hcreated := he.createdAt.again hk.dateValue_again
  have hupdated := he.updatedAt.again hk.dateValue_again
  simp only [SessionTypeOrmMapper.toAggregate, SessionBuilder.build, hk.validate_set, required_some, ok_bind,
    Option.bind_some, Option.getD_some, valueObject_some, hid, huser, hhash, hexpires, hrevoked, hreplaced,
    hcreated, hupdated]
  rfl

section
variable {e : UserEntity}

/-- What the required fields of a user hold is not empty. -/
theorem userRow_ne (hk : k.Lawful) (he : k.UserRow e) : e.externalId ≠ "" ∧ e.email ≠ "" := by
  obtain ⟨x, hx⟩ := he.externalId
  obtain ⟨m, hm⟩ := he.email
  exact ⟨hk.stringValue_ne _ _ _ rfl hx, hk.emailValue_ne _ _ hm⟩

theorem user_toAggregate (hk : k.Lawful) (he : k.UserRow e) (b : UserBuilder) :
    (UserTypeOrmMapper.toAggregate k clock e b).1 = .ok e.toAggregate := by
  obtain ⟨hx, hm⟩ := userRow_ne hk he
  have hid := he.id.again hk.uuidValue_again
  have hexternal : k.externalIdValue e.externalId = some e.externalId :=
    he.externalId.again (hk.stringValue_again _)
  have hemail := he.email.again hk.emailValue_again
  have hdisplay : optionalObject k.displayNameValue e.displayName = .ok e.displayName :=
    IsValue.optional (hk.stringValue_again _) he.displayName
  have hcreated := he.createdAt.again hk.dateValue_again
  have hupdated := he.updatedAt.again hk.dateValue_again
  simp only [UserTypeOrmMapper.toAggregate, UserTypeOrmMapper.load, UserBuilder.build, hk.validate_set,
    requiredString_some hx, requiredString_some hm, ok_bind, Option.bind_some, Option.getD_some,
    valueObject_some, hid, hexternal, hemail, hdisplay, hcreated, hupdated]
  rfl

theorem user_toViewModel (hk : k.Lawful) (he : k.UserRow e) (b : UserBuilder) :
    (UserTypeOrmMapper.toViewModel k clock e b).1 = .ok e := by
  obtain ⟨hx, hm⟩ := userRow_ne hk he
  simp only [UserTypeOrmMapper.toViewModel, UserTypeOrmMapper.load, UserBuilder.buildViewModel,
    hk.validate_set, requiredString_some hx, requiredString_some hm, required_some, ok_bind,
    Option.getD_some]
  rfl

end

section
variable {e : TenantEntity}

theorem tenantRow_ne (hk : k.Lawful) (he : k.TenantRow e) : e.name ≠ "" ∧ e.slug ≠ "" := by
  obtain ⟨x, hx⟩ := he.name
  obtain ⟨s, hs⟩ := he.slug
  exact ⟨hk.stringValue_ne _ _ _ rfl hx, hk.slugValue_ne _ _ hs⟩

theorem tenant_toAggregate (hk : k.Lawful) (he : k.TenantRow e) (b : TenantBuilder) :
    (TenantTypeOrmMapper.toAggregate k clock e b).1 = .ok e.toAggregate := by
  obtain ⟨hn, hs⟩ := tenantRow_ne hk he
  have hid := he.id.again hk.uuidValue_again
  have happ := he.appId.again hk.uuidValue_again
  have hname : k.nameValue e.name = some e.name := he.name.again (hk.stringValue_again _)
  have hslug := he.slug.again hk.slugValue_again
  have hcreated := he.createdAt.again hk.dateValue_again
  have hupdated := he.updatedAt.again hk.dateValue_again
  simp only [TenantTypeOrmMapper.toAggregate, TenantTypeOrmMapper.load, TenantBuilder.build, hk.validate_set,
    required_some, requiredString_some hn, requiredString_some hs, ok_bind, Option.bind_some,
    Option.getD_some, valueObject_some, hid, happ, hname, hslug, hcreated, hupdated]
  rfl

theorem tenant_toViewModel (hk : k.Lawful) (he : k.TenantRow e) (b : TenantBuilder) :
    (TenantTypeOrmMapper.toViewModel k clock e b).1 = .ok e := by
  obtain ⟨hn, hs⟩ := tenantRow_ne hk he
  simp only [TenantTypeOrmMapper.toViewModel, TenantTypeOrmMapper.load, TenantBuilder.buildViewModel,
    hk.validate_set, requiredString_some hn, requiredString_some hs, required_some, ok_bind,
    Option.getD_some]
  rfl

end

section
variable {e : TenantMembershipEntity}

theorem membership_toAggregate (hk : k.Lawful) (he : k.MembershipRow e) (b : TenantMembershipBuilder) :
    (TenantMembershipTypeOrmMapper.toAggregate k clock e b).1 = .ok ⟨e, []⟩ := by
  have hid := he.id.again hk.uuidValue_again
  have htenant := he.tenantId.again hk.uuidValue_again
  have huser := he.userId.again hk.uuidValue_again
  have hcreated := he.createdAt.again hk.dateValue_again
  have hupdated := he.updatedAt.again hk.dateValue_again
  simp only [TenantMembershipTypeOrmMapper.toAggregate, TenantMembershipTypeOrmMapper.load,
    TenantMembershipBuilder.build, hk.validate_set, required_some, requiredString_some (tenantRole_ne _),
    ok_bind, Option.bind_some, Option.getD_some, valueObject_some, tenantRoleValue_value, hid, htenant, huser,
    hcreated, hupdated]
  rfl

theorem membership_toViewModel (hk : k.Lawful) (b : TenantMembershipBuilder) :
    (TenantMembershipTypeOrmMapper.toViewModel k clock e b).1 =
      .ok ⟨e.id, e.tenantId, e.userId, e.role.value, e.createdAt, e.updatedAt⟩ := by
  simp only [TenantMembershipTypeOrmMapper.toViewModel, TenantMembershipTypeOrmMapper.load,
    TenantMembershipBuilder.buildViewModel, hk.validate_set, required_some,
    requiredString_some (tenantRole_ne _), ok_bind, Option.getD_some]
  rfl

end

section
variable {e : AppEntity}

theorem appRow_ne (hk : k.Lawful) (he : k.AppRow e) : e.slug ≠ "" ∧ e.name ≠ "" := by
  obtain ⟨s, hs⟩ := he.slug
  obtain ⟨x, hx⟩ := he.name
  exact ⟨hk.slugValue_ne _ _ hs, hk.stringValue_ne _ _ _ rfl hx⟩

theorem app_toAggregate (hk : k.Lawful) (he : k.AppRow e) (b : AppBuilder) :
    (AppTypeOrmMapper.toAggregate k clock e b).1 = .ok ⟨e, []⟩ := by
  obtain ⟨hs, hn⟩ := appRow_ne hk he
  have hid := he.id.again hk.uuidValue_again
  have hslug := he.slug.again hk.slugValue_again
  have hname : k.nameValue e.name = some e.name := he.name.again (hk.stringValue_again _)
  have hcreated := he.createdAt.again hk.dateValue_again
  have hupdated := he.updatedAt.again hk.dateValue_again
  simp only [AppTypeOrmMapper.toAggregate, AppTypeOrmMapper.load, AppBuilder.build, hk.validate_set,
    requiredString_some hn, requiredString_some hs, ok_bind, Option.bind_some, Option.getD_some,
    valueObject_some, hid, hname, hslug, hcreated, hupdated]
  rfl

theorem app_toViewModel (hk : k.Lawful) (he : k.AppRow e) (b : AppBuilder) :
    (AppTypeOrmMapper.toViewModel k clock e b).1 = .ok e := by
  obtain ⟨hs, hn⟩ := appRow_ne hk he
  simp only [AppTypeOrmMapper.toViewModel, AppTypeOrmMapper.load, AppBuilder.buildViewModel,
    hk.validate_set, requiredString_some hn, requiredString_some hs, required_some, ok_bind,
    Option.getD_some]
  rfl

end

/-- **The shared builders keep nothing between uses**: what a call site builds after any uses of any
builders, also ones that threw, is decided by its inputs; an aggregate that is written is read back
with the same primitives; and a row is the same as a view model and as an aggregate. -/
theorem builders_keep_nothing (k : BuilderKit) (hk : k.Lawful) :
    (∀ (site : CallSite) (clock clock' : Date) (b b' : Builders)
      (earlier earlier' : List (CallSite × Date)),
      (site.run k clock (b.after k earlier)).1 = (site.run k clock' (b'.after k earlier')).1) ∧
    (∀ (clock : Date) (b : Builders),
      (∀ s : SessionAggregate, k.SessionRow s.toEntity →
        (SessionTypeOrmMapper.toAggregate k clock s.toEntity b.session).1 = .ok s) ∧
      (∀ u : UserAggregate, k.UserRow u.primitives →
        (UserTypeOrmMapper.toAggregate k clock (UserTypeOrmMapper.toEntity u) b.user).1.map (·.primitives) =
          .ok u.primitives) ∧
      (∀ t : TenantAggregate, k.TenantRow t.primitives →
        (TenantTypeOrmMapper.toAggregate k clock (TenantTypeOrmMapper.toEntity t) b.tenant).1.map
          (·.primitives) = .ok t.primitives) ∧
      (∀ m : TenantMembershipAggregate, k.MembershipRow m.primitives →
        (TenantMembershipTypeOrmMapper.toAggregate k clock (TenantMembershipTypeOrmMapper.toEntity m)
          b.membership).1.map (·.primitives) = .ok m.primitives) ∧
      (∀ a : AppAggregate, k.AppRow a.primitives →
        (AppTypeOrmMapper.toAggregate k clock (AppTypeOrmMapper.toEntity a) b.app).1.map (·.primitives) =
          .ok a.primitives)) ∧
    ∀ (clock clock' : Date) (b b' : Builders),
      (∀ e, k.UserRow e → (UserTypeOrmMapper.toViewModel k clock e b.user).1 =
        (UserTypeOrmMapper.toAggregate k clock' e b'.user).1.map (·.primitives)) ∧
      (∀ e, k.TenantRow e → (TenantTypeOrmMapper.toViewModel k clock e b.tenant).1 =
        (TenantTypeOrmMapper.toAggregate k clock' e b'.tenant).1.map (·.primitives)) ∧
      (∀ e, k.MembershipRow e → (TenantMembershipTypeOrmMapper.toViewModel k clock e b.membership).1 =
        (TenantMembershipTypeOrmMapper.toAggregate k clock' e b'.membership).1.map fun m =>
          ⟨m.primitives.id, m.primitives.tenantId, m.primitives.userId, m.primitives.role.value,
            m.primitives.createdAt, m.primitives.updatedAt⟩) ∧
      (∀ e, k.AppRow e → (AppTypeOrmMapper.toViewModel k clock e b.app).1 =
        (AppTypeOrmMapper.toAggregate k clock' e b'.app).1.map (·.primitives)) := by
  refine ⟨fun site clock clock' b b' _ _ => run_forgets site clock clock' _ _, fun clock b => ?_,
    fun clock clock' b b' => ?_⟩
  · refine ⟨fun s hs => session_toAggregate hk hs _, fun u hu => ?_, fun t ht => ?_, fun m hm => ?_,
      fun a ha => ?_⟩
    · exact congrArg (Except.map _) (user_toAggregate hk hu b.user)
    · exact congrArg (Except.map _) (tenant_toAggregate hk ht b.tenant)
    · exact congrArg (Except.map _) (membership_toAggregate hk hm b.membership)
    · exact congrArg (Except.map _) (app_toAggregate hk ha b.app)
  · refine ⟨fun e he => ?_, fun e he => ?_, fun e he => ?_, fun e he => ?_⟩
    · rw [user_toViewModel hk he, user_toAggregate hk he]
      rfl
    · rw [tenant_toViewModel hk he, tenant_toAggregate hk he]
      rfl
    · rw [membership_toViewModel hk, membership_toAggregate hk he]
      rfl
    · rw [app_toViewModel hk he, app_toAggregate hk he]
      rfl

theorem BuilderKit.permissive_lawful : BuilderKit.permissive.Lawful where
  toLawful := Kit.permissive_lawful
  uuidValue_again _ _ _ := rfl
  dateValue_again _ _ _ := rfl
  refreshTokenHashValue_again _ _ _ := rfl
  slugValue_again v w h := by
    simp only [permissive, Option.ite_none_left_eq_some, Option.some.injEq] at h ⊢
    obtain ⟨hv, rfl⟩ := h
    exact ⟨hv, trivial⟩
  slugValue_ne v w h := by
    simp only [permissive, Option.ite_none_left_eq_some, Option.some.injEq] at h
    obtain ⟨hv, rfl⟩ := h
    exact hv
  stringValue_ne o v w ho h := by
    simp only [permissive, Kit.permissive, Kit.boundedValue, ho, Option.all_some,
      Option.ite_none_right_eq_some, Option.some.injEq, Bool.and_eq_true, decide_eq_true_eq] at h
    obtain ⟨⟨hlen, -⟩, rfl⟩ := h
    intro hempty
    rw [hempty] at hlen
    exact absurd hlen (by decide)
  validate_set _ _ _ := rfl

/-- After a use for an administrator and one that throws, John is read back as he was written. -/
theorem builders_keep_nothing_john :
    (UserTypeOrmMapper.toAggregate BuilderKit.permissive (.millis 9)
      (UserTypeOrmMapper.toEntity
        ⟨⟨12, "kc-john", "john@example.com", none, false, .millis 1, .millis 2⟩, []⟩)
      (Builders.new.after BuilderKit.permissive
        [(.userToAggregate ⟨11, "kc-jane", "jane@example.com", some "Jane", true, .millis 3, .millis 4⟩,
            .millis 5),
          (.createUser ⟨"kc-jack", "no email", some "Jack"⟩ 13 (.millis 6), .millis 7)]).user).1.map
        (·.primitives) =
      .ok ⟨12, "kc-john", "john@example.com", none, false, .millis 1, .millis 2⟩ := by
  have hrow : BuilderKit.permissive.UserRow
      ⟨12, "kc-john", "john@example.com", none, false, .millis 1, .millis 2⟩ :=
    { id := ⟨12, rfl⟩
      externalId := ⟨"kc-john", by decide⟩
      email := ⟨"john@example.com", by decide⟩
      displayName := nofun
      createdAt := ⟨.millis 1, rfl⟩
      updatedAt := ⟨.millis 2, rfl⟩ }
  exact ((builders_keep_nothing BuilderKit.permissive BuilderKit.permissive_lawful).2.1 (.millis 9) _).2.1
    ⟨_, []⟩ hrow

end AccountApi

import AccountApi.Spec.Aggregates

/-!
# The events of an update describe it

Each field is lawful, so that its `change…` method announces and writes it
(`Announces.supply`); `update` is the composition of them (`Announces.comp`), and
`Updatable.described` takes this to sequences of calls.

`updates_described`: **for the four aggregates, one call emits the changes of the
supplied fields and the state after it, and the events of any sequence of calls,
replayed, give the final primitives.**
-/

namespace AccountApi

open Sourced

theorem UserEntity.emailField_lawful :
    UserEntity.emailField.Lawful UserAggregate.updatable.setUpdatedAt UserEvent.replay :=
  ⟨fun _ => rfl, fun _ _ => if_pos rfl, fun _ _ => rfl, fun _ _ => rfl, fun _ _ _ => rfl⟩

theorem UserEntity.displayNameField_lawful :
    UserEntity.displayNameField.Lawful UserAggregate.updatable.setUpdatedAt UserEvent.replay :=
  ⟨fun _ => rfl, fun _ _ => if_pos rfl, fun _ _ => rfl, fun _ _ => rfl, fun _ _ _ => rfl⟩

theorem UserEntity.platformAdminField_lawful :
    UserEntity.platformAdminField.Lawful UserAggregate.updatable.setUpdatedAt UserEvent.replay :=
  ⟨fun _ => rfl, fun _ _ => if_pos rfl, fun _ _ => rfl, fun _ _ => rfl, fun _ _ _ => rfl⟩

theorem AppEntity.nameField_lawful :
    AppEntity.nameField.Lawful AppAggregate.updatable.setUpdatedAt AppEvent.replay :=
  ⟨fun _ => rfl, fun _ _ => if_pos rfl, fun _ _ => rfl, fun _ _ => rfl, fun _ _ _ => rfl⟩

theorem AppEntity.slugField_lawful :
    AppEntity.slugField.Lawful AppAggregate.updatable.setUpdatedAt AppEvent.replay :=
  ⟨fun _ => rfl, fun _ _ => if_pos rfl, fun _ _ => rfl, fun _ _ => rfl, fun _ _ _ => rfl⟩

theorem TenantEntity.nameField_lawful :
    TenantEntity.nameField.Lawful TenantAggregate.updatable.setUpdatedAt TenantEvent.replay :=
  ⟨fun _ => rfl, fun _ _ => if_pos rfl, fun _ _ => rfl, fun _ _ => rfl, fun _ _ _ => rfl⟩

theorem TenantEntity.slugField_lawful :
    TenantEntity.slugField.Lawful TenantAggregate.updatable.setUpdatedAt TenantEvent.replay :=
  ⟨fun _ => rfl, fun _ _ => if_pos rfl, fun _ _ => rfl, fun _ _ => rfl, fun _ _ _ => rfl⟩

/-- `UserAggregate.update`, up to its last event. -/
theorem userAggregate_announces (props : UserProps) :
    Announces UserAggregate.updatable.setUpdatedAt UserEvent.replay
      (fun now u => UserEntity.platformAdminField.supply (UserEntity.touch now)
        (UserEntity.displayNameField.supply (UserEntity.touch now)
          (UserEntity.emailField.supply (UserEntity.touch now) u props.email)
          (props.displayName.map some)) props.platformAdmin)
      (UserAggregate.updatable.announced · props) (UserAggregate.updatable.overwrite · props) := by
  have hemail := Announces.supply UserEntity.emailField_lawful props.email
  have hdisplayName := Announces.supply UserEntity.displayNameField_lawful (props.displayName.map some)
  have hadmin := Announces.supply UserEntity.platformAdminField_lawful props.platformAdmin
  have hboth := hemail.comp hdisplayName (fun _ _ _ => rfl) (fun _ _ => rfl) (fun _ => rfl) (fun _ _ => rfl)
  exact hboth.comp hadmin (fun _ _ _ => rfl) (fun _ _ => rfl) (fun _ => rfl) (fun _ _ => rfl)

theorem userAggregate_described : UserAggregate.updatable.Described := by
  have hrun : ∀ (u : UserAggregate) (props : UserProps) (now : Date), u.update props now =
      let b := UserEntity.platformAdminField.supply (UserEntity.touch now)
        (UserEntity.displayNameField.supply (UserEntity.touch now)
          (UserEntity.emailField.supply (UserEntity.touch now) u props.email)
          (props.displayName.map some)) props.platformAdmin
      b.apply (.updated b.primitives) := by
    intro u props now
    unfold UserAggregate.update
    cases props.displayName <;> rfl
  refine Updatable.described userAggregate_announces (fun u props now => ?_) (fun u props now => ?_)
    (fun _ => rfl) (fun _ _ _ => rfl) (fun _ _ => rfl)
  case refine_1 =>
    simp only [UserAggregate.updatable]
    rw [hrun]
    rfl
  case refine_2 =>
    simp only [UserAggregate.updatable]
    rw [hrun]
    rfl

section
variable (t : TenantAggregate) (now : Date)

theorem TenantAggregate.supply_name (name : Option String) :
    let u := name.elim t fun name => t.changeName name now
    (⟨u.primitives, u.events⟩ : Aggregate TenantEntity TenantEvent) =
      TenantEntity.nameField.supply (TenantEntity.touch now) ⟨t.primitives, t.events⟩ name := by
  cases name with
  | none => rfl
  | some name =>
    simp only [Option.elim_some, Field.supply, Field.change, TenantEntity.nameField, changeName]
    by_cases h : t.primitives.name = name
    · simp [h]
    · simp [h, touch, apply, Aggregate.apply, TenantEntity.touch]

theorem TenantAggregate.supply_slug (slug : Option String) :
    let u := slug.elim t fun slug => t.changeSlug slug now
    (⟨u.primitives, u.events⟩ : Aggregate TenantEntity TenantEvent) =
      TenantEntity.slugField.supply (TenantEntity.touch now) ⟨t.primitives, t.events⟩ slug := by
  cases slug with
  | none => rfl
  | some slug =>
    simp only [Option.elim_some, Field.supply, Field.change, TenantEntity.slugField, changeSlug]
    by_cases h : t.primitives.slug = slug
    · simp [h]
    · simp [h, touch, apply, Aggregate.apply, TenantEntity.touch]

end

/-- `TenantAggregate.update`, up to its last event. -/
theorem tenantAggregate_announces (props : TenantProps) :
    Announces TenantAggregate.updatable.setUpdatedAt TenantEvent.replay
      (fun now t => TenantEntity.slugField.supply (TenantEntity.touch now)
        (TenantEntity.nameField.supply (TenantEntity.touch now) t props.name) props.slug)
      (TenantAggregate.updatable.announced · props) (TenantAggregate.updatable.overwrite · props) := by
  have hname := Announces.supply TenantEntity.nameField_lawful props.name
  have hslug := Announces.supply TenantEntity.slugField_lawful props.slug
  exact hname.comp hslug (fun _ _ _ => rfl) (fun _ _ => rfl) (fun _ => rfl) (fun _ _ => rfl)

theorem tenantAggregate_described : TenantAggregate.updatable.Described := by
  have hrun : ∀ (t : TenantAggregate) (props : TenantProps) (now : Date),
      let u := t.update props.name props.slug now
      (⟨u.primitives, u.events⟩ : Aggregate TenantEntity TenantEvent) =
        let b := TenantEntity.slugField.supply (TenantEntity.touch now)
          (TenantEntity.nameField.supply (TenantEntity.touch now) ⟨t.primitives, t.events⟩ props.name)
          props.slug
        b.apply (.updated b.primitives) := by
    intro t props now
    have hname := t.supply_name now props.name
    have hslug := (props.name.elim t fun name => t.changeName name now).supply_slug now props.slug
    simp only [TenantAggregate.update, TenantAggregate.apply] at hname hslug ⊢
    rw [← hname, ← hslug]
    rfl
  refine Updatable.described tenantAggregate_announces (fun t props now => ?_) (fun t props now => ?_)
    (fun _ => rfl) (fun _ _ _ => rfl) (fun _ _ => rfl)
  case refine_1 => exact congrArg Aggregate.primitives (hrun t props now)
  case refine_2 =>
    have hevents := congrArg Aggregate.events (hrun t props now)
    have hprimitives := congrArg Aggregate.primitives (hrun t props now)
    simp only [TenantAggregate.updatable, Aggregate.apply] at hevents hprimitives ⊢
    rw [hevents, hprimitives]

end AccountApi

import AccountApi.Spec.Conflicts
import AccountApi.Proof.TenancyMoves

/-!
# `CreateApp` requests for one slug

`CreateAppMove` is what a call of a `CreateApp` request does.

* `Apps.slugClaims_lawful`: requests for one slug are lawful claims.
-/

namespace AccountApi

open Transition Claim

/-- The calls of a `CreateApp` request. -/
inductive CreateAppMove (c : CreateAppCommand) (id : Uuid) (now : Date) (apps : List AppEntity) :
    List AppEntity → CreateAppPhase → CreateAppPhase → Prop
  | refuse (a) : appBySlug apps c.slug = some a →
      CreateAppMove c id now apps apps .received (.failed (.appSlugAlreadyExists c.slug))
  | check : appBySlug apps c.slug = none → CreateAppMove c id now apps apps .received .slugAvailable
  | save (apps') : saveApp apps (c.app id now).primitives = some apps' →
      CreateAppMove c id now apps apps' .slugAvailable .succeeded
  | reject : saveApp apps (c.app id now).primitives = none →
      CreateAppMove c id now apps apps .slugAvailable (.failed .queryFailed)

@[simp] theorem CreateAppCommand.app_primitives (c : CreateAppCommand) (id : Uuid) (now : Date) :
    (c.app id now).primitives = ⟨id, c.slug, c.name, now, now⟩ := rfl

namespace CreateAppPhase

variable {p : CreateAppPhase} {e : AppError}

theorem outcome_ok (h : p.outcome = some (.ok ())) : p = .succeeded := by
  cases p <;> first | rfl | cases h

theorem outcome_error (h : p.outcome = some (.error e)) : p = .failed e := by
  cases p <;> cases h
  rfl

theorem claim_rejected (h : p.claim = .rejected) : p = .failed .queryFailed := by
  cases p with
  | failed e => cases e <;> first | rfl | cases h
  | _ => cases h

end CreateAppPhase

theorem CreateAppCommand.advance_isSome {c : CreateAppCommand} {id : Uuid} {now : Date}
    {apps : List AppEntity} {p : CreateAppPhase} (h : p.outcome = none) :
    (c.advance id now apps p).isSome = true := by
  unfold CreateAppCommand.advance
  cases p with
  | received => cases appBySlug apps c.slug <;> simp
  | slugAvailable => cases saveApp apps (c.app id now).primitives <;> simp
  | succeeded | failed => cases h

theorem advance_createAppMove {c : CreateAppCommand} {id : Uuid} {now : Date} {apps apps' : List AppEntity}
    {p q : CreateAppPhase} (h : c.advance id now apps p = some (apps', q)) :
    CreateAppMove c id now apps apps' p q := by
  unfold CreateAppCommand.advance at h
  split at h
  case h_3 | h_4 => cases h
  · split at h <;> cases h
    · exact .refuse _ ‹_›
    · exact .check ‹_›
  · split at h <;> cases h
    · exact .reject ‹_›
    · exact .save _ ‹_›

namespace Apps

variable {ι : Type} [DecidableEq ι] {S : Apps ι} {s t : AppsState ι} {a : ι × Date} {slug : String}
  {apps : List AppEntity}

theorem step_move (h : S.step s a = some t) :
    CreateAppMove (S.requests a.1) (S.newId a.1) a.2 s.apps t.apps (s.phase a.1) (t.phase a.1) ∧
      ∀ j, j ≠ a.1 → t.phase j = s.phase j := by
  unfold step at h
  obtain ⟨⟨apps, p⟩, hnext, rfl⟩ := Option.map_eq_some_iff.1 h
  refine ⟨?_, fun j hj => Function.update_of_ne hj _ _⟩
  simp only [Function.update_self]
  exact advance_createAppMove hnext

/-- What holds between two calls. -/
structure Inv (S : Apps ι) (slug : String) (s : AppsState ι) : Prop where
  requests : ∀ i, (S.requests i).slug = slug
  ids : (s.apps.map (·.id)).Nodup
  /-- The id of a request has no row before the request saves it. -/
  fresh : ∀ i, s.phase i ≠ .succeeded → ∀ a ∈ s.apps, a.id ≠ S.newId i
  error : ∀ i e, s.phase i = .failed e → e = .appSlugAlreadyExists slug ∨ e = .queryFailed

omit [DecidableEq ι] in
theorem ClaimSlug.inv (h : S.ClaimSlug apps slug) : Inv S slug (start apps) := by
  refine ⟨h.requests, h.ids, fun i _ => h.fresh i, ?_⟩
  intro i e he
  cases he

theorem inv_step (hs : Inv S slug s) (h : S.step s a = some t) : Inv S slug t := by
  obtain ⟨hmove, hothers⟩ := step_move h
  -- a call that leaves the apps, and ends with the conflict if at all
  have hquiet : t.apps = s.apps → s.phase a.1 ≠ .succeeded →
      (∀ e, t.phase a.1 = .failed e → e = .appSlugAlreadyExists slug ∨ e = .queryFailed) → Inv S slug t := by
    intro happs hphase herror
    refine ⟨hs.requests, happs ▸ hs.ids, fun i hi => ?_, fun i e he => ?_⟩
    · rw [happs]
      refine hs.fresh i fun hsucc => ?_
      by_cases hia : i = a.1
      · exact hphase (hia ▸ hsucc)
      · exact hi ((hothers i hia).trans hsucc)
    · by_cases hia : i = a.1
      · subst hia
        exact herror e he
      · exact hs.error i e (hothers i hia ▸ he)
  generalize hp : s.phase a.1 = p at hmove hquiet
  generalize hq : t.phase a.1 = q at hmove hquiet
  generalize happs : t.apps = rows at hmove hquiet
  cases hmove with
  | refuse =>
    refine hquiet rfl (by simp) fun e he => ?_
    cases he
    exact Or.inl (congrArg _ (hs.requests a.1))
  | check => exact hquiet rfl (by simp) fun e he => by cases he
  | reject =>
    refine hquiet rfl (by simp) fun e he => ?_
    cases he
    exact Or.inr rfl
  | save _ hsave =>
    refine ⟨hs.requests, happs ▸ Table.nodup_upsert hs.ids hsave, fun i hi x hx => ?_, fun i e he => ?_⟩
    · have hia : i ≠ a.1 := fun hia => hi (hia ▸ hq)
      rw [happs] at hx
      rcases Table.mem_upsert hsave hx with rfl | ⟨hx, -⟩
      · exact fun hid => hia (S.newId.injective hid).symm
      · exact hs.fresh i (hothers i hia ▸ hi) x hx
    · by_cases hia : i = a.1
      · rw [hia, hq] at he
        cases he
      · exact hs.error i e (hothers i hia ▸ he)

omit [DecidableEq ι] in
theorem saveApp_claim {c : CreateAppCommand} {id : Uuid} {now : Date} (hids : (apps.map (·.id)).Nodup)
    (hfresh : ∀ x ∈ apps, x.id ≠ id) (hslug : c.slug = slug) :
    (∀ apps', saveApp apps (c.app id now).primitives = some apps' →
      (apps.filter fun x => x.slug = slug).length = 0 ∧ (apps'.filter fun x => x.slug = slug).length = 1) ∧
      (saveApp apps (c.app id now).primitives = none → 0 < (apps.filter fun x => x.slug = slug).length) := by
  refine Table.claim_upsert _ hids ?_ ?_ ?_
  · simp [hslug]
  · intro x hx hid
    exact absurd hid (hfresh x hx)
  · intro x _
    simp [hslug]

/-- **A step is a move of the claims.** -/
theorem move_step (hs : Inv S slug s) (h : S.step s a = some t) :
    (S.slugClaims slug).Move s t (s.phase a.1).claim (t.phase a.1).claim := by
  obtain ⟨hmove, -⟩ := step_move h
  have hslug := hs.requests a.1
  have hfresh := hs.fresh a.1
  have hids := hs.ids
  generalize s.phase a.1 = p at hmove hfresh
  generalize t.phase a.1 = q at hmove
  generalize happs : t.apps = rows at hmove
  have hrows : (S.slugClaims slug).rows t.apps = (S.slugClaims slug).rows rows := by rw [happs]
  cases hmove with
  | refuse x hx =>
    rw [hslug] at hx ⊢
    exact .refuse (Table.find_some_pos hx) happs
  | check hx =>
    rw [hslug] at hx
    exact .check (Table.find_none_iff.1 hx) happs
  | save _ hsave =>
    obtain ⟨hfree, hone⟩ := (saveApp_claim hids (hfresh (by simp)) hslug).1 rows hsave
    exact .win hfree (hrows.trans hone)
  | reject hsave => exact .reject ((saveApp_claim hids (hfresh (by simp)) hslug).2 hsave) happs

/-- **`CreateApp` requests for one slug are lawful claims.** -/
theorem slugClaims_lawful : (S.slugClaims slug).Lawful (Inv S slug) where
  inv _ _ _ hs h := inv_step hs h
  move _ _ _ hs h := ⟨move_step hs h, fun j hj => congrArg CreateAppPhase.claim ((step_move h).2 j hj)⟩
  ok s i _ h := by
    have hphase : s.phase i = .succeeded := CreateAppPhase.outcome_ok h
    exact Or.inl (congrArg CreateAppPhase.claim hphase)
  error s i e hs h := by
    have hphase : s.phase i = .failed e := CreateAppPhase.outcome_error h
    rcases hs.error i e hphase with rfl | rfl
    · exact Or.inl ⟨congrArg CreateAppPhase.claim hphase, rfl⟩
    · exact Or.inr (congrArg CreateAppPhase.claim hphase)
  rejected s i _ h := by
    have hphase : s.phase i = .failed .queryFailed := CreateAppPhase.claim_rejected h
    exact ⟨.queryFailed, congrArg CreateAppPhase.outcome hphase, by simp [slugClaims]⟩
  live s i _ h := by
    refine ⟨(i, .millis 0), rfl, ?_⟩
    simpa [slugClaims, step] using CreateAppCommand.advance_isSome h

end Apps

end AccountApi

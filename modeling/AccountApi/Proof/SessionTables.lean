import AccountApi.Proof.Entities

/-!
# The session requests next to the other tables

Handlers save and delete rows while session requests log in, rotate and revoke. What a request is about to
write waits in its phase (`Phase.Fits`), and so does the user of a successor that is inserted and not committed.

* `tables_in_schema`: **at any moment of any run the tables are a content of the migrated schema**.
-/

namespace AccountApi

open Transition Sql

/-- What a request will write fits the columns. -/
def Phase.Fits : Phase → Prop
  | locked c => c.toEntity.Fits
  | rotating res | inserted res | updated res => res.created.toEntity.Fits ∧ res.revoked.toEntity.Fits
  | revoking _ u | bulk u => u.startedAt ≠ .invalid
  | _ => True

/-- The tokens to issue have hashes, and expire. -/
structure System.Issues {ι : Type} (S : System ι) : Prop where
  hashes : ∀ i, S.newHash i < 16 ^ 64
  expire : ∀ i, (∀ u, S.requests i ≠ .revokeAll u) → S.expiresAt i ≠ .invalid

theorem NewSession.fits {new : NewSession} {userId : Uuid} {now : Date} (hhash : new.refreshTokenHash < 16 ^ 64)
    (hexpires : new.expiresAt ≠ .invalid) (hnow : now ≠ .invalid) : (new.build userId now).toEntity.Fits :=
  ⟨hhash, hexpires, by simp [NewSession.build], hnow, hnow⟩

theorem SessionEntity.Fits.setRevokedAt {e : SessionEntity} (h : e.Fits) {now : Date} (hnow : now ≠ .invalid) :
    (e.setRevokedAt now).Fits :=
  ⟨h.hash, h.expires, by simpa using hnow, h.stamped.created, hnow⟩

section
variable {env : Env} {new : NewSession} {req : Request} {ev : Event} {p p' : Phase} {eff : Effect}

theorem visit_startedAt {u u' : RevokeAll} (h : env.visit u = some u') : u'.startedAt = u.startedAt := by
  unfold Env.visit at h
  split at h
  · cases h
  split at h
  · cases h
  split at h <;> cases h <;> rfl

theorem move_fits (h : Move env new req ev p p' eff) (hrows : ∀ e ∈ env.sessions, e.Fits)
    (hhash : new.refreshTokenHash < 16 ^ 64) (hexpires : (∀ u, req ≠ .revokeAll u) → new.expiresAt ≠ .invalid)
    (htime : ev.time ≠ some .invalid) (hp : p.Fits) : p'.Fits := by
  cases h with
  | select r e hfind _ => exact hrows e (findByRefreshTokenHash_some hfind).1
  | rotate r now c res hcallback =>
    obtain ⟨-, -, rfl⟩ := rotateCallback_rotate hcallback
    have hnow : now ≠ .invalid := fun h => htime (congrArg some h)
    have hc : c.toEntity.Fits := hp
    have hrevoked : (c.revoke new.id now).toEntity.revokedAt ≠ some .invalid := by
      rw [toEntity_revokedAt]
      exact fun h => hnow (Option.some.inj h)
    exact ⟨NewSession.fits hhash (hexpires (by simp)) hnow, hc.hash, hc.expires, hrevoked, hc.stamped.created, hnow⟩
  | insert r res _ => exact hp
  | update r res _ => exact hp
  | startRevokeAll r now c _ => exact fun h => htime (congrArg some h)
  | startBulk user now _ => exact fun h => htime (congrArg some h)
  | visit r c u u' hvisit =>
    show u'.startedAt ≠ .invalid
    rw [visit_startedAt hvisit]
    exact hp
  | visitBulk user u u' hvisit =>
    show u'.startedAt ≠ .invalid
    rw [visit_startedAt hvisit]
    exact hp
  | _ => trivial

/-- What a step writes fits the columns. -/
theorem effect_fits (h : Move env new req ev p p' eff) (hhash : new.refreshTokenHash < 16 ^ 64)
    (hexpires : (∀ u, req ≠ .revokeAll u) → new.expiresAt ≠ .invalid) (htime : ev.time ≠ some .invalid)
    (hp : p.Fits) : (∀ e, e.Fits → (eff.rewrite e).Fits) ∧ ∀ e ∈ eff.inserted, e.Fits := by
  have hmark : ∀ {ids : List Uuid} {now : Date}, now ≠ .invalid → ∀ e : SessionEntity, e.Fits →
      (markRevoked ids now e).Fits := by
    intro ids now hnow e he
    unfold markRevoked
    split
    · exact he.setRevokedAt hnow
    · exact he
  cases h with
  | login l now _ =>
    have hnow : now ≠ .invalid := fun h => htime (congrArg some h)
    refine ⟨fun e he => he, fun e he => ?_⟩
    rw [List.mem_singleton.1 he]
    exact NewSession.fits hhash (hexpires (by simp)) hnow
  | commit r res =>
    -- the rows were built when the callback ran, and waited in the phase since
    obtain ⟨hcreated, hrevoked⟩ := hp
    refine ⟨fun e he => ?_, fun e he => ?_⟩
    · show (if e.id = res.revoked.toEntity.id then res.revoked.toEntity else e).Fits
      split
      · exact hrevoked
      · exact he
    · rw [List.mem_singleton.1 he]
      exact hcreated
  | endRevokeAll r c u _ => exact ⟨hmark hp, fun e he => by cases he⟩
  | endBulk user u _ => exact ⟨hmark hp, fun e he => by cases he⟩
  | _ => exact ⟨fun e he => he, fun e he => by cases he⟩

end

/-- The user of the successor that an open rotation has inserted. -/
def Phase.successorUser : Phase → Option Uuid
  | inserted res | updated res => some res.created.userId
  | _ => none

/-- The sessions of a run next to the other tables. -/
structure TablesInv {ι : Type} (S : System ι) (x : Database × State ι) : Prop where
  stored : Stored x.1 x.2.sessions
  chains : ChainShape S x.2
  phases : ∀ i, (x.2.phase i).Fits
  successorUsers : ∀ i userId, (x.2.phase i).successorUser = some userId → x.1.world.hasUser userId = true

variable {ι : Type} [Fintype ι] [DecidableEq ι] {S : System ι} {x y : Database × State ι}

omit [Fintype ι] [DecidableEq ι] in
/-- The user of what a step inserts is known: by the statement, or since the INSERT of the rotation. -/
theorem insertedUser_cases {s : State ι} {env : Env} {new : NewSession} {i : ι} {ev : Event} {p : Phase}
    {eff : Effect} (h : Move env new (S.requests i) ev (s.phase i) p eff) :
    (∀ e ∈ eff.inserted, S.insertedUser s (i, ev) = some e.userId ∨ (s.phase i).successorUser = some e.userId) ∧
      ∀ userId, p.successorUser = some userId →
        S.insertedUser s (i, ev) = some userId ∨ (s.phase i).successorUser = some userId := by
  unfold System.insertedUser
  generalize S.requests i = req at h
  generalize s.phase i = q at h
  cases h with
  | login l now _ =>
    refine ⟨fun e he => ?_, fun userId h => (by cases h)⟩
    rw [List.mem_singleton.1 he]
    exact .inl rfl
  | commit r res =>
    refine ⟨fun e he => ?_, fun userId h => (by cases h)⟩
    rw [List.mem_singleton.1 he]
    exact .inr rfl
  | insert r res _ => exact ⟨fun e he => (by cases he), fun userId h => .inl h⟩
  | update r res _ => exact ⟨fun e he => (by cases he), fun userId h => .inr h⟩
  | _ => exact ⟨fun e he => (by cases he), fun userId h => (by cases h)⟩

theorem tablesInv_session (hS : S.Issues) (hI : TablesInv S x) {a : ι × Event} {t : State ι}
    (htime : a.2.time ≠ some .invalid) (huser : (S.insertedUser x.2 a).all x.1.world.hasUser = true)
    (h : S.step x.2 a = some t) : TablesInv S (x.1, t) := by
  obtain ⟨b, s⟩ := x
  obtain ⟨hstored, hchains, hphases, husers⟩ := hI
  have hafter := chainShape_step hchains h
  obtain ⟨i, ev⟩ := a
  obtain ⟨p, eff, hm, rfl⟩ := System.step_move h
  have hexpires : (∀ u, S.requests i ≠ .revokeAll u) → (S.newSession i).expiresAt ≠ .invalid := hS.expire i
  obtain ⟨hrewritten, hinserted⟩ := effect_fits hm (hS.hashes i) hexpires htime (hphases i)
  have hok := move_effect hchains.inv hm
  -- the user that the statement names, or the open rotation
  have hknown : ∀ userId, S.insertedUser s (i, ev) = some userId ∨ (s.phase i).successorUser = some userId →
      b.world.hasUser userId = true := by
    rintro userId (hnamed | hopen)
    · rw [hnamed, Option.all_some] at huser
      exact huser
    · exact husers i userId hopen
  obtain ⟨hinsertedUser, hsuccessorUser⟩ := insertedUser_cases hm
  constructor
  case chains => exact hafter
  case phases =>
    refine forall_moved (fun j hj => Function.update_of_ne hj _ _) (P := fun _ (q : Phase) => q.Fits) ?_
      fun j _ => hphases j
    rw [Function.update_self]
    exact move_fits hm hstored.sessionsFit (hS.hashes i) hexpires htime (hphases i)
  case successorUsers =>
    refine forall_moved (fun j hj => Function.update_of_ne hj _ _)
      (P := fun _ (q : Phase) => ∀ userId, q.successorUser = some userId → b.world.hasUser userId = true) ?_
      fun j _ => husers j
    rw [Function.update_self]
    exact fun userId h => hknown userId (hsuccessorUser userId h)
  case stored =>
    have hrows : ∀ {P : SessionEntity → Prop}, (∀ e ∈ s.sessions, P (eff.rewrite e)) → (∀ e ∈ eff.inserted, P e) →
        ∀ e ∈ eff.apply s.sessions, P e := by
      intro P hold hnew e he
      rw [hok.apply] at he
      rcases List.mem_append.1 he with he | he
      · obtain ⟨x, hx, rfl⟩ := List.mem_map.1 he
        exact hold x hx
      · exact hnew e he
    constructor
    case toIntegrity => exact hstored.toIntegrity
    case appIds => exact hstored.appIds
    case fits => exact hstored.fits
    case sessionIds => exact hafter.inv.ids
    case hashes => exact hafter.inv.hashes
    case sessionUsers =>
      refine hrows (fun e he => ?_) fun e he => hasUser_iff.1 (hknown _ (hinsertedUser e he))
      rw [(hok.keeps e he).userId]
      exact hstored.sessionUsers e he
    case successors =>
      intro e he id hid
      obtain ⟨-, e', he', hid', -⟩ := hafter.links e he id hid
      exact ⟨e', he', hid'⟩
    case sessionsFit => exact hrows (fun e he => hrewritten e (hstored.sessionsFit e he)) hinserted

omit [Fintype ι] [DecidableEq ι] in
/-- The users stay. -/
theorem TablesInv.of_stored (hI : TablesInv S x) {b : Database} (hstored : Stored b x.2.sessions)
    (husers : ∀ u ∈ x.1.users, ∃ v ∈ b.users, v.id = u.id) : TablesInv S (b, x.2) := by
  refine ⟨hstored, hI.chains, hI.phases, fun i userId hopen => ?_⟩
  obtain ⟨u, hu, hid⟩ := hasUser_iff.1 (hI.successorUsers i userId hopen)
  obtain ⟨v, hv, hvid⟩ := husers u hu
  exact hasUser_iff.2 ⟨v, hv, hvid.trans hid⟩

theorem tablesInv_step (hS : S.Issues) (hI : TablesInv S x) {q : TableStatement ι} (hq : q.Fits)
    (h : q.step S x = some y) : TablesInv S y := by
  obtain ⟨b, s⟩ := x
  have hkept : ∀ u ∈ b.users, ∃ v ∈ b.users, v.id = u.id := fun u hu => ⟨u, hu, rfl⟩
  cases q with
  | saveApp a =>
    obtain ⟨apps, hsave, rfl⟩ := Option.map_eq_some_iff.1 h
    exact hI.of_stored ((hI.stored.saveApp hq).1 hsave).2 hkept
  | saveUser u =>
    obtain ⟨users, hsave, rfl⟩ := Option.map_eq_some_iff.1 h
    exact hI.of_stored ((hI.stored.saveUser hq).1 hsave).2 fun u hu => Table.key_upsert hsave hu
  | saveTenant t =>
    obtain ⟨tenancy, hsave, rfl⟩ := Option.map_eq_some_iff.1 h
    exact hI.of_stored ((hI.stored.saveTenant hq).1 hsave).2 hkept
  | saveMembership m =>
    obtain ⟨tenancy, hsave, rfl⟩ := Option.map_eq_some_iff.1 h
    exact hI.of_stored ((hI.stored.saveMembership hq).1 hsave).2 hkept
  | deleteAllByTenantId id =>
    cases h
    exact hI.of_stored (hI.stored.deleteAllByTenantId id) hkept
  | deleteTenant id =>
    cases h
    exact hI.of_stored (hI.stored.deleteTenant id) hkept
  | session a =>
    obtain ⟨huser, h⟩ := Option.ite_none_right_eq_some.1 h
    obtain ⟨t, hstep, rfl⟩ := Option.map_eq_some_iff.1 h
    exact tablesInv_session hS hI hq huser hstep

/-- **The tables are a content of the migrated schema at any moment**, whatever rows the handlers save and
delete, in whatever order, and however that interleaves with the steps of session requests; so the session
migrations can be undone at any moment. -/
theorem tables_in_schema {b b' : Database} {s : State ι} {qs : List (TableStatement ι)} (hS : S.Issues)
    (hb : InSchema b []) (hqs : ∀ q ∈ qs, q.Fits)
    (h : exec (TableStatement.step S) (b, S.start []) qs = some (b', s)) :
    InSchema b' s.sessions ∧ ∃ db₂ db₁,
      Migrated sessionChainRotation.down 2 ⟨migratedSchema, b'.rows s.sessions⟩ db₂ ∧
      Migrated splitUserAndAuthSession.down 1 db₂ db₁ := by
  have hstart : TablesInv S (b, S.start []) :=
    ⟨hb.stored fun _ he => (by cases he), chainShape_start S, fun _ => trivial, fun _ _ h => (by cases h)⟩
  have hI : TablesInv S (b', s) := by
    refine invariant_along ?_ hstart (along_of_forall hqs) h
    exact fun x q y hI hq hstep => tablesInv_step hS hI hq hstep
  have hlevel := hI.stored.inSchema
  obtain ⟨db₂, h₂⟩ := AtLevel.down (n := 2) hlevel (by decide) rfl
  obtain ⟨db₁, h₁⟩ := h₂.level.down (n := 1) (by decide) rfl
  exact ⟨hlevel, db₂, db₁, h₂, h₁⟩

/-- Jane and an app are saved before she logs in and rotates her token. -/
def savesThenRotates : List (TableStatement (Fin 4)) :=
  .saveUser janeEntity :: .saveApp ⟨1, "gardenia", "Gardenia", .millis 1, .millis 1⟩ :: rotateOnce.map .session

theorem tables_in_schema_rotated : ∃ b s,
    exec (TableStatement.step replaySystem) (Database.empty, replaySystem.start []) savesThenRotates =
      some (b, s) ∧ b.apps.length = 1 ∧ s.sessions.length = 2 ∧ InSchema b s.sessions := by
  obtain ⟨b, s, h, happs, hsessions⟩ : ∃ b s,
      exec (TableStatement.step replaySystem) (Database.empty, replaySystem.start []) savesThenRotates =
        some (b, s) ∧ b.apps.length = 1 ∧ s.sessions.length = 2 := ⟨_, _, rfl, by decide, by decide⟩
  have hissues : replaySystem.Issues := by
    constructor
    · exact fun i => lt_of_lt_of_le i.isLt (by decide)
    · have hexpire : ∀ i, replaySystem.expiresAt i ≠ .invalid := by decide
      exact fun i _ => hexpire i
  have htimes : ∀ a ∈ rotateOnce, a.2.time ≠ some .invalid := by decide
  refine ⟨b, s, h, happs, hsessions, (tables_in_schema hissues stored_empty.inSchema ?_ h).1⟩
  intro q hq
  rcases List.mem_cons.1 hq with rfl | hq
  · exact janeEntity_fits
  rcases List.mem_cons.1 hq with rfl | hq
  · exact ⟨by decide, by decide, by simp, by simp⟩
  · obtain ⟨a, ha, rfl⟩ := List.mem_map.1 hq
    exact htimes a ha

end AccountApi

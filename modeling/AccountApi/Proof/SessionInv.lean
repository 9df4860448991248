import AccountApi.Proof.Moves

/-!
# The invariant of the session system

From any table in which the ids and hashes the requests generate are unused, in
every interleaving:

* `Inv.exclusive`: a row lock has one holder;
* `Inv.unused`: the id and hash a request generated are unused until it stores them;
* `View`: what a request remembers of the row it locked is what the table holds,
  and a refresh that has rotated left its row revoked and linked to its successor.

`move_effect` says what a step does to the table: it rewrites only rows whose
lock the request holds, never un-revokes or re-links one, and adds only the
session the request generated.
-/

namespace AccountApi

open Transition

/-- A later version of a row: same identity, and a revoked row stays revoked with its link. -/
structure Keeps (e e' : SessionEntity) : Prop where
  id : e'.id = e.id
  userId : e'.userId = e.userId
  hash : e'.refreshTokenHash = e.refreshTokenHash
  revoked : e.revoked → e'.revoked
  link : e.revoked → e'.replacedBySessionId = e.replacedBySessionId

theorem Keeps.refl (e : SessionEntity) : Keeps e e := ⟨rfl, rfl, rfl, fun h => h, fun _ => rfl⟩

/-- The new version an effect gives a row. -/
def Effect.rewrite : Effect → SessionEntity → SessionEntity
  | .rotate revoked _, e => if e.id = revoked.id then revoked else e
  | .revokeAll ids now, e => markRevoked ids now e
  | _, e => e

@[simp] theorem rewrite_none : Effect.none.rewrite = id := rfl
@[simp] theorem rewrite_save (e : SessionEntity) : (Effect.save e).rewrite = id := rfl

/-- The row an effect adds. -/
def Effect.inserted : Effect → List SessionEntity
  | .save e | .rotate _ e => [e]
  | _ => []

theorem keeps_markRevoked (ids : List Uuid) (now : Date) (e : SessionEntity) :
    Keeps e (markRevoked ids now e) := by
  unfold markRevoked
  split
  · exact ⟨rfl, rfl, rfl, fun _ => rfl, fun _ => rfl⟩
  · exact Keeps.refl e

/-- The effect of a step of a request in phase `p`, on a table it may change. -/
structure EffectOK (sessions : List SessionEntity) (new : NewSession) (p : Phase) (eff : Effect) :
    Prop where
  apply : eff.apply sessions = sessions.map eff.rewrite ++ eff.inserted
  keeps : ∀ e ∈ sessions, Keeps e (eff.rewrite e)
  touched : ∀ e ∈ sessions, p.holds e.id = false → eff.rewrite e = e
  fresh : ∀ n ∈ eff.inserted, n.id = new.id ∧ n.refreshTokenHash = new.refreshTokenHash ∧
    n.revokedAt = none ∧ n.replacedBySessionId = none
  single : eff.inserted.length ≤ 1

/-- The aggregate of a refresh in its reuse branch. -/
def Phase.reusing : Phase → Option SessionAggregate
  | reuse c | revoking c _ | revokedAll c => some c
  | _ => none

/-- The result of the callback of a refresh that is rotating. -/
def Phase.result : Phase → Option RotateResult
  | rotating r | inserted r | updated r => some r
  | _ => none

/-- The row of the presented token, which is revoked. -/
def Consumed (sessions : List SessionEntity) (r : RefreshRequest) (e : SessionEntity) : Prop :=
  e ∈ sessions ∧ e.refreshTokenHash = r.presentedHash ∧ e.revoked

/-- What a refresh remembers agrees with the table. -/
structure View (sessions : List SessionEntity) (new : NewSession) (r : RefreshRequest) (p : Phase) :
    Prop where
  locked : ∀ c, p = .locked c → c.toEntity ∈ sessions ∧ c.refreshTokenHash = r.presentedHash
  reusing : ∀ c, p.reusing = some c → ∃ e, Consumed sessions r e ∧ e.id = c.id ∧ e.userId = c.userId
  rotating : ∀ res, p.result = some res → ∃ c now, c.toEntity ∈ sessions ∧
    c.refreshTokenHash = r.presentedHash ∧ rotateCallback new now c = .rotate res
  rotated : p.rotated = true → ∃ e, Consumed sessions r e ∧ e.replacedBySessionId = some new.id
  reused : p = .failed .refreshTokenReuseDetected → ∃ e, Consumed sessions r e

/-- The invariant. -/
structure Inv {ι : Type} (S : System ι) (s : State ι) : Prop where
  ids : (s.sessions.map (·.id)).Nodup
  hashes : (s.sessions.map (·.refreshTokenHash)).Nodup
  unused : ∀ i, (s.phase i).stored = false → ∀ e ∈ s.sessions, e.id ≠ S.newId i ∧
    e.refreshTokenHash ≠ S.newHash i
  exclusive : ∀ i j id, (s.phase i).holds id = true → (s.phase j).holds id = true → i = j
  views : ∀ i r, S.requests i = .refresh r → View s.sessions (S.newSession i) r (s.phase i)

variable {ι : Type} {S : System ι} {s t : State ι}

theorem inv_init {sessions : List SessionEntity} (hids : (sessions.map (·.id)).Nodup)
    (hhashes : (sessions.map (·.refreshTokenHash)).Nodup)
    (hnew : ∀ i, ∀ e ∈ sessions, e.id ≠ S.newId i ∧ e.refreshTokenHash ≠ S.newHash i) :
    Inv S (S.start sessions) where
  ids := hids
  hashes := hhashes
  unused i _ := hnew i
  exclusive i j id h := by simp [System.start, Phase.holds, Phase.rowLock, Phase.update] at h
  views i r _ := by
    constructor <;> simp [System.start, Phase.reusing, Phase.result, Phase.rotated]

/-- The migration that introduces chains deletes every row. -/
theorem inv_start (S : System ι) : Inv S (S.start []) :=
  inv_init (by simp) (by simp) (by simp)

/-- Two rows with one id are one row. -/
theorem Inv.id_inj (hI : Inv S s) {e e' : SessionEntity} (he : e ∈ s.sessions) (he' : e' ∈ s.sessions)
    (h : e.id = e'.id) : e = e' :=
  List.inj_on_of_nodup_map hI.ids he he' h

/-- Two rows with one hash are one row. -/
theorem Inv.hash_inj (hI : Inv S s) {e e' : SessionEntity} (he : e ∈ s.sessions)
    (he' : e' ∈ s.sessions) (h : e.refreshTokenHash = e'.refreshTokenHash) : e = e' :=
  List.inj_on_of_nodup_map hI.hashes he he' h

section Moves

variable {env : Env} {new : NewSession} {req : Request} {ev : Event} {p p' : Phase} {eff : Effect}

/-- The UPDATE's next row is free, and is marked when its latest version is un-revoked. -/
theorem visit_spec {u u' : RevokeAll} (h : env.visit u = some u') :
    ∃ id rest, u.pending = id :: rest ∧ env.locked id = false ∧ u'.pending = rest ∧
      (((∃ e ∈ env.sessions, e.id = id ∧ e.revokedAt = none) ∧ u'.marked = id :: u.marked) ∨
        ((∀ e ∈ env.sessions, e.id = id → e.revoked) ∧ u'.marked = u.marked)) := by
  unfold Env.visit at h
  split at h
  · cases h
  rename_i id rest hp
  split at h
  · cases h
  rename_i hl
  refine ⟨id, rest, hp, Bool.eq_false_iff.2 hl, ?_⟩
  split at h
  · rename_i hu
    cases h
    exact ⟨rfl, Or.inl ⟨by simpa using hu, rfl⟩⟩
  · rename_i hu
    cases h
    refine ⟨rfl, Or.inr ⟨fun e he hid => ?_, rfl⟩⟩
    simp only [List.any_eq_true, not_exists, not_and] at hu
    cases hr : e.revokedAt with
    | none => exact absurd (by simp [hid, hr]) (hu e he)
    | some d => simp [SessionEntity.revoked, hr]

/-- The UPDATE's candidates are the un-revoked rows of the user. -/
theorem mem_candidates {userId id : Uuid} : id ∈ env.candidates userId ↔
    ∃ e ∈ env.sessions, e.id = id ∧ e.userId = userId ∧ e.revokedAt = none := by
  simp only [Env.candidates, List.mem_insertionSort, List.mem_map, List.mem_filter,
    Bool.and_eq_true, decide_eq_true_eq, Option.isNone_iff_eq_none]
  constructor
  · rintro ⟨e, ⟨he, hu, hr⟩, rfl⟩; exact ⟨e, he, rfl, hu, hr⟩
  · rintro ⟨e, he, rfl, hu, hr⟩; exact ⟨e, ⟨he, hu, hr⟩, rfl⟩

theorem candidates_nodup (h : (env.sessions.map (·.id)).Nodup) (userId : Uuid) :
    (env.candidates userId).Nodup := by
  unfold Env.candidates
  refine (List.perm_insertionSort _ _).nodup_iff.2 (h.sublist ?_)
  exact List.filter_sublist.map _

/-- A new lock is taken only on a row whose lock was free. -/
theorem move_holds (h : Move env new req ev p p' eff) {id : Uuid} (hh : p'.holds id = true) :
    p.holds id = true ∨ env.locked id = false := by
  cases h with
  | select r e _ hl =>
    simp only [Phase.holds, Phase.rowLock, Phase.update, SessionEntity.toAggregate,
      Option.any_none, Bool.or_false, decide_eq_true_eq, Option.some.injEq] at hh
    exact Or.inr (hh ▸ hl)
  | reuse r now c c' hc =>
    obtain ⟨-, rfl⟩ := rotateCallback_reuse hc
    exact Or.inl hh
  | rotate r now c res hc =>
    obtain ⟨-, -, rfl⟩ := rotateCallback_rotate hc
    exact Or.inl hh
  | visit r c u u' hv | visitBulk i u u' hv =>
    obtain ⟨id', rest, -, hl, -, ⟨-, hm⟩ | ⟨-, hm⟩⟩ := visit_spec hv
    · simp only [Phase.holds, Phase.rowLock, Phase.update, hm, Option.any_some,
        List.contains_cons, Bool.or_eq_true, beq_iff_eq] at hh ⊢
      rcases hh with hh | rfl | hh
      · exact Or.inl (Or.inl hh)
      · exact Or.inr hl
      · exact Or.inl (Or.inr hh)
    · simp only [Phase.holds, Phase.rowLock, Phase.update, Option.any_some, hm] at hh ⊢
      exact Or.inl hh
  | _ =>
    revert hh
    simp [Phase.holds, Phase.rowLock, Phase.update, Env.startRevokeAll]
    try tauto

/-- A request that has stored its session keeps that status. -/
theorem move_stored (h : Move env new req ev p p' eff) (hs : p.stored = true) : p'.stored = true := by
  cases h with
  | abort r p hc => cases p <;> simp_all [Phase.stored, Phase.rotated, Phase.connections]
  | _ => simp_all [Phase.stored, Phase.rotated]

/-- A step that stores a session makes the request one that has stored. -/
theorem move_inserted (h : Move env new req ev p p' eff) (hi : eff.inserted ≠ []) :
    p.stored = false ∧ p'.stored = true := by
  cases h <;> simp_all [Effect.inserted, Phase.stored, Phase.rotated]

end Moves

/-- **What a step does to the table.** -/
theorem move_effect [Fintype ι] (hI : Inv S s) {i : ι} {ev : Event} {p' : Phase} {eff : Effect}
    (h : Move (S.env s) (S.newSession i) (S.requests i) ev (s.phase i) p' eff) :
    EffectOK s.sessions (S.newSession i) (s.phase i) eff := by
  have hnone : EffectOK s.sessions (S.newSession i) (s.phase i) .none :=
    ⟨by simp [Effect.apply, Effect.inserted], fun e _ => Keeps.refl e,
      fun _ _ _ => rfl, by simp [Effect.inserted], by simp [Effect.inserted]⟩
  generalize hreq : S.requests i = req at h
  generalize hp : s.phase i = p at h
  rw [hp] at hnone
  cases h with
  | commit r res =>
    -- the locked row is still as the callback saw it, and the successor is unused
    obtain ⟨c, now, hc, hh, hcb⟩ := (hI.views i r hreq).rotating res (by rw [hp]; rfl)
    obtain ⟨hrev, -, rfl⟩ := rotateCallback_rotate hcb
    have hun := hI.unused i (by rw [hp]; rfl)
    set revoked := (c.revoke (S.newSession i).id now).toEntity
    set created := ((S.newSession i).build c.userId now).toEntity
    have hid : revoked.id = c.toEntity.id := rfl
    have hsave : saveRotated s.sessions created revoked =
        some ((s.sessions.map fun x => if x.id = revoked.id then revoked else x) ++ [created]) :=
      saveRotated_eq hI.hashes hc hid rfl hun
    refine ⟨?_, ?_, ?_, ?_, by simp [Effect.inserted]⟩
    · rw [Effect.apply, hsave]; rfl
    · intro e he
      simp only [Effect.rewrite]
      split
      · rename_i heq
        obtain rfl := hI.id_inj he hc (heq.trans hid)
        have hlive : ¬ c.toEntity.revoked := by
          simpa [SessionEntity.revoked, SessionAggregate.isRevoked] using hrev
        exact ⟨rfl, rfl, rfl, fun h => absurd h hlive, fun h => absurd h hlive⟩
      · exact Keeps.refl e
    · intro e he hfree
      simp only [Effect.rewrite]
      rw [if_neg]
      rintro heq
      simp only [Phase.holds, Phase.rowLock, Bool.or_eq_false_iff, decide_eq_false_iff_not,
        Option.some.injEq] at hfree
      exact hfree.1 heq.symm
    · intro n hn
      simp only [Effect.inserted, List.mem_singleton] at hn
      subst hn
      exact ⟨rfl, rfl, rfl, rfl⟩
  | login l now =>
    have hun := hI.unused i (by rw [hp]; rfl)
    have hins : saveSession s.sessions ((S.newSession i).build l.userId now).toEntity =
        some (s.sessions ++ [((S.newSession i).build l.userId now).toEntity]) := saveSession_insert hun
    refine ⟨?_, fun e _ => Keeps.refl e, fun _ _ _ => rfl, ?_, by simp [Effect.inserted]⟩
    · simp [Effect.apply, hins, Effect.inserted]
    · intro n hn
      simp only [Effect.inserted, List.mem_singleton] at hn
      subst hn
      exact ⟨rfl, rfl, rfl, rfl⟩
  | endRevokeAll r c u _ | endBulk id u _ =>
    refine ⟨by simp only [Effect.apply, Effect.inserted, List.append_nil]; rfl,
      fun e _ => keeps_markRevoked _ _ e, ?_, by simp [Effect.inserted], by simp [Effect.inserted]⟩
    intro e he hfree
    simp only [Phase.holds, Phase.update, Option.any_some, Bool.or_eq_false_iff] at hfree
    simp only [Effect.rewrite, markRevoked]
    rw [if_neg]
    simpa using hfree.2
  | _ => exact hnone

theorem Consumed.keeps {sessions ins : List SessionEntity} {f : SessionEntity → SessionEntity}
    {r : RefreshRequest} {e : SessionEntity} (h : Consumed sessions r e)
    (hk : ∀ e ∈ sessions, Keeps e (f e)) : Consumed (sessions.map f ++ ins) r (f e) :=
  ⟨List.mem_append_left _ (List.mem_map_of_mem h.1), (hk e h.1).hash.trans h.2.1,
    (hk e h.1).revoked h.2.2⟩

/-- A view survives the steps of the other requests: they keep the row its request has locked. -/
theorem View.frame {sessions ins : List SessionEntity} {new : NewSession} {r : RefreshRequest}
    {p : Phase} {f : SessionEntity → SessionEntity} (hv : View sessions new r p)
    (hk : ∀ e ∈ sessions, Keeps e (f e))
    (hfix : ∀ e ∈ sessions, p.rowLock = some e.id → f e = e) :
    View (sessions.map f ++ ins) new r p where
  locked c hc := by
    obtain ⟨hm, hh⟩ := hv.locked c hc
    have := List.mem_map_of_mem (f := f) hm
    rw [hfix _ hm (by rw [hc]; rfl)] at this
    exact ⟨List.mem_append_left _ this, hh⟩
  reusing c hc := by
    obtain ⟨e, he, hid, hu⟩ := hv.reusing c hc
    exact ⟨f e, he.keeps hk, (hk e he.1).id.trans hid, (hk e he.1).userId.trans hu⟩
  rotating res hr := by
    obtain ⟨c, now, hm, hh, hcb⟩ := hv.rotating res hr
    have hlock : p.rowLock = some c.toEntity.id := by
      obtain ⟨-, -, rfl⟩ := rotateCallback_rotate hcb
      cases p <;> simp only [Phase.result, Option.some.injEq, reduceCtorEq] at hr <;> subst hr <;> rfl
    have := List.mem_map_of_mem (f := f) hm
    rw [hfix _ hm hlock] at this
    exact ⟨c, now, List.mem_append_left _ this, hh, hcb⟩
  rotated h := by
    obtain ⟨e, he, hl⟩ := hv.rotated h
    exact ⟨f e, he.keeps hk, ((hk e he.1).link he.2.2).trans hl⟩
  reused h := by
    obtain ⟨e, he⟩ := hv.reused h
    exact ⟨f e, he.keeps hk⟩

/-- A request's own step carries its view along. -/
theorem move_view {env : Env} {new : NewSession} {r : RefreshRequest} {ev : Event} {p p' : Phase}
    {eff : Effect} (h : Move env new (.refresh r) ev p p' eff) (hv : View env.sessions new r p)
    (hok : EffectOK env.sessions new p eff) :
    View (env.sessions.map eff.rewrite ++ eff.inserted) new r p' := by
  have hvac : ∀ {q}, (∀ c, q ≠ .locked c) → q.reusing = none → q.result = none →
      q.rotated = false → q ≠ .failed .refreshTokenReuseDetected →
      View (env.sessions.map eff.rewrite ++ eff.inserted) new r q := by
    intro q h1 h2 h3 h4 h5
    exact ⟨fun c hc => absurd hc (h1 c), by simp [h2], by simp [h3], by simp [h4], fun h => absurd h h5⟩
  cases h with
  | select _ e hf _ =>
    obtain ⟨he, hh⟩ := findByRefreshTokenHash_some hf
    refine ⟨?_, by simp [Phase.reusing], by simp [Phase.result], by simp [Phase.rotated], by simp⟩
    rintro c ⟨⟩
    simpa [Effect.inserted] using ⟨he, hh⟩
  | reuse _ now c c' hcb =>
    obtain ⟨hrev, rfl⟩ := rotateCallback_reuse hcb
    obtain ⟨hm, hh⟩ := hv.locked c rfl
    refine ⟨by simp, ?_, by simp [Phase.result], by simp [Phase.rotated], by simp⟩
    rintro c' ⟨⟩
    refine ⟨c.toEntity, ⟨by simpa [Effect.inserted] using hm, hh, ?_⟩, rfl, rfl⟩
    simpa [SessionEntity.revoked, SessionAggregate.isRevoked] using hrev
  | rotate _ now c res hcb =>
    obtain ⟨hm, hh⟩ := hv.locked c rfl
    refine ⟨by simp, by simp [Phase.reusing], ?_, by simp [Phase.rotated], by simp⟩
    rintro res ⟨⟩
    exact ⟨c, now, by simpa [Effect.inserted] using hm, hh, hcb⟩
  | insert _ res _ | update _ res _ =>
    refine ⟨by simp, by simp [Phase.reusing], ?_, by simp [Phase.rotated], by simp⟩
    rintro res ⟨⟩
    simpa [Effect.inserted] using hv.rotating res rfl
  | commit _ res =>
    obtain ⟨c, now, hm, hh, hcb⟩ := hv.rotating res rfl
    obtain ⟨-, -, rfl⟩ := rotateCallback_rotate hcb
    refine ⟨by simp, by simp [Phase.reusing], by simp [Phase.result], fun _ => ?_, by simp⟩
    refine ⟨(c.revoke new.id now).toEntity, ⟨List.mem_append_left _ ?_, hh, rfl⟩, rfl⟩
    have := List.mem_map_of_mem (f := Effect.rewrite (.rotate (c.revoke new.id now).toEntity
      (new.build c.userId now).toEntity)) hm
    simpa only [Effect.rewrite, show c.toEntity.id = (c.revoke new.id now).toEntity.id from rfl,
      if_true] using this
  | startRevokeAll _ now c _ | visit _ c u u' _ | endRevokeAll _ c u _ =>
    refine ⟨by simp, ?_, by simp [Phase.result], by simp [Phase.rotated], by simp⟩
    rintro c ⟨⟩
    obtain ⟨e, he, hid, hu⟩ := hv.reusing c rfl
    exact ⟨_, he.keeps hok.keeps, (hok.keeps e he.1).id.trans hid, (hok.keeps e he.1).userId.trans hu⟩
  | rollback _ c =>
    refine ⟨by simp, by simp [Phase.reusing], by simp [Phase.result], by simp [Phase.rotated], fun _ => ?_⟩
    obtain ⟨e, he, -⟩ := hv.reusing c rfl
    exact ⟨_, he.keeps hok.keeps⟩
  | findUser _ c _ | noUser _ c answer e | findMemberships _ c _ | noMemberships _ c | sign _ c ok res =>
    refine ⟨by simp, by simp [Phase.reusing], by simp [Phase.result], fun _ => ?_, by simp⟩
    simpa [Effect.inserted] using hv.rotated rfl
  | _ => exact hvac (by simp) rfl rfl rfl (by simp)

variable [Fintype ι] [DecidableEq ι]

/-- **Every step preserves the invariant.** -/
theorem inv_step (hI : Inv S s) {a : ι × Event} (h : S.step s a = some t) : Inv S t := by
  obtain ⟨i, ev⟩ := a
  obtain ⟨p, eff, hm, rfl⟩ := System.step_move h
  have hok := move_effect hI hm
  have hun : ∀ n ∈ eff.inserted, ∀ e ∈ s.sessions, e.id ≠ n.id ∧
      e.refreshTokenHash ≠ n.refreshTokenHash := by
    intro n hn e he
    obtain ⟨hid, hh, -⟩ := hok.fresh n hn
    rw [hid, hh]
    exact hI.unused i (move_inserted hm (List.ne_nil_of_mem hn)).1 e he
  -- a row locked by another request is not touched by this one
  have hfix : ∀ j, j ≠ i → ∀ e ∈ s.sessions, (s.phase j).rowLock = some e.id → eff.rewrite e = e := by
    intro j hj e he hl
    refine hok.touched e he (Bool.eq_false_iff.2 fun hi => hj ?_)
    exact hI.exclusive j i e.id (by simp [Phase.holds, hl]) hi
  constructor
  case ids =>
    simp only [hok.apply]
    exact Table.nodup_map_append hI.ids (fun e he => (hok.keeps e he).id) hok.single
      (fun n hn e he => (hun n hn e he).1)
  case hashes =>
    simp only [hok.apply]
    exact Table.nodup_map_append hI.hashes (fun e he => (hok.keeps e he).hash) hok.single
      (fun n hn e he => (hun n hn e he).2)
  case unused =>
    simp only [hok.apply]
    intro j hj e he
    rw [List.mem_append] at he
    have hj' : (s.phase j).stored = false := by
      by_cases hji : j = i
      · subst hji
        simp only [Function.update_self] at hj
        exact Bool.eq_false_iff.2 fun hs => by rw [move_stored hm hs] at hj; cases hj
      · simpa [Function.update_of_ne hji] using hj
    rcases he with he | he
    · obtain ⟨x, hx, rfl⟩ := List.mem_map.1 he
      rw [(hok.keeps x hx).id, (hok.keeps x hx).hash]
      exact hI.unused j hj' x hx
    · obtain ⟨hid, hh, -⟩ := hok.fresh e he
      have hne : i ≠ j := by
        rintro rfl
        rw [Function.update_self, (move_inserted hm (List.ne_nil_of_mem he)).2] at hj; cases hj
      rw [hid, hh]
      exact ⟨fun h => hne (S.newId.injective h), fun h => hne (S.newHash.injective h)⟩
  case exclusive =>
    -- a newly taken lock was free, so nobody else holds it
    have hnew : ∀ id, p.holds id = true → ∀ j, j ≠ i → (s.phase j).holds id = false := by
      intro id hp j hj
      rcases move_holds hm hp with hold | hfree
      · exact Bool.eq_false_iff.2 fun hj' => hj (hI.exclusive j i id hj' hold)
      · exact System.env_locked.1 hfree j
    intro j k id hj hk
    by_cases hji : j = i <;> by_cases hki : k = i
    · rw [hji, hki]
    · subst hji
      simp only [Function.update_self, Function.update_of_ne hki] at hj hk
      rw [hnew id hj k hki] at hk; cases hk
    · subst hki
      simp only [Function.update_self, Function.update_of_ne hji] at hj hk
      rw [hnew id hk j hji] at hj; cases hj
    · simp only [Function.update_of_ne hji, Function.update_of_ne hki] at hj hk
      exact hI.exclusive j k id hj hk
  case views =>
    intro j r hr
    simp only [hok.apply]
    by_cases hji : j = i
    · subst hji
      rw [hr] at hm
      simp only [Function.update_self]
      exact move_view hm (hI.views j r hr) hok
    · simp only [Function.update_of_ne hji]
      exact (hI.views j r hr).frame hok.keeps (hfix j hji)

/-- **The invariant holds in every state reached.** -/
theorem inv_exec (hI : Inv S s) {as : List (ι × Event)} (h : exec S.step s as = some t) : Inv S t :=
  invariant (fun _ _ _ hI h => inv_step hI h) hI h

end AccountApi

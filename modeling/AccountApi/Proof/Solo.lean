import AccountApi.Proof.RefreshFailure

/-!
# A refresh that runs alone

While no row is locked and connections are not limited, the steps of one refresh
of the session system, performed without interruption, do what
`RefreshSessionCommandHandler.execute` does (`refresh_solo`): the same table, and the
same end. So the runs of `Command.step` are runs of the system.
-/

namespace AccountApi

open Handler Transition

variable {ι : Type} [Fintype ι] [DecidableEq ι] {S : System ι} {s : State ι} {i : ι}
  {r : RefreshRequest}

/-- The state in which request `i` is in phase `q` and the rest is as in `s`. -/
def State.at (s : State ι) (i : ι) (sessions : List SessionEntity) (q : Phase) : State ι :=
  ⟨sessions, Function.update s.phase i q⟩

theorem locked_at (hfree : ∀ j id, (s.phase j).holds id = false) {sessions : List SessionEntity}
    {q : Phase} {id : Uuid} : (S.env (s.at i sessions q)).locked id = q.holds id := by
  have hiff : (∃ j, (Function.update s.phase i q j).holds id = true) ↔ q.holds id = true := by
    constructor
    · rintro ⟨j, hj⟩
      by_cases hji : j = i
      · simpa [hji] using hj
      · rw [Function.update_of_ne hji, hfree] at hj; cases hj
    · intro h; exact ⟨i, by simpa using h⟩
  simp only [System.env, State.at, hiff, Bool.decide_eq_true]

/-- From `sessions` and phase `q`, the steps of request `i` alone lead to `sessions'` and `q'`. -/
def Alone (S : System ι) (s : State ι) (i : ι) (sessions : List SessionEntity) (q : Phase)
    (sessions' : List SessionEntity) (q' : Phase) : Prop :=
  ∃ evs : List Event,
    exec S.step (s.at i sessions q) (evs.map (Prod.mk i)) = some (s.at i sessions' q')

theorem Alone.refl (sessions : List SessionEntity) (q : Phase) : Alone S s i sessions q sessions q :=
  ⟨[], rfl⟩

/-- One step, then the rest. -/
theorem Alone.head {sessions sessions' : List SessionEntity} {q q' : Phase} (ev : Event) (q₁ : Phase)
    (eff : Effect)
    (h : advance (S.env (s.at i sessions q)) (S.newSession i) (S.requests i) ev q = some (q₁, eff))
    (hrest : Alone S s i (eff.apply sessions) q₁ sessions' q') : Alone S s i sessions q sessions' q' := by
  obtain ⟨evs, hevs⟩ := hrest
  refine ⟨ev :: evs, exec_cons.2 ⟨_, ?_, hevs⟩⟩
  simp [System.step, State.at, h] at h ⊢

theorem Alone.trans {t u v : List SessionEntity} {q q₁ q' : Phase} (h : Alone S s i t q u q₁)
    (h' : Alone S s i u q₁ v q') : Alone S s i t q v q' := by
  obtain ⟨evs, hevs⟩ := h
  obtain ⟨evs', hevs'⟩ := h'
  exact ⟨evs ++ evs', by rw [List.map_append, exec_append]; exact ⟨_, hevs, hevs'⟩⟩

theorem connection_at (hcap : S.capacity = none) {sessions : List SessionEntity} {q : Phase} :
    (S.env (s.at i sessions q)).connection = true := by simp [System.env, hcap]

/-- Alone, the UPDATE marks every candidate. -/
theorem visits_alone (c : SessionAggregate) (now : Date) (hr : S.requests i = .refresh r)
    (hfree : ∀ j id, (s.phase j).holds id = false) {sessions : List SessionEntity} (pending : List Uuid) :
    ∀ marked, (pending ++ marked).Nodup →
      (∀ id ∈ pending, id ≠ c.id ∧ ∃ e ∈ sessions, e.id = id ∧ e.revokedAt = none) →
      Alone S s i sessions (.revoking c ⟨now, pending, marked⟩) sessions
        (.revoking c ⟨now, [], pending.reverse ++ marked⟩) := by
  induction pending with
  | nil => exact fun _ _ _ => Alone.refl _ _
  | cons id rest ih =>
    intro marked hnodup hrows
    obtain ⟨hne, e, he, hid, hun⟩ := hrows id List.mem_cons_self
    have hmark : id ∉ marked := by
      rw [List.cons_append, List.nodup_cons, List.mem_append] at hnodup
      exact fun h => hnodup.1 (Or.inr h)
    have hlock : (S.env (s.at i sessions (.revoking c ⟨now, id :: rest, marked⟩))).locked id = false := by
      rw [locked_at hfree]
      simp [Phase.holds, Phase.rowLock, Phase.update, hne.symm, hmark]
    have hany : sessions.any (fun e => e.id = id && e.revokedAt.isNone) = true :=
      List.any_eq_true.2 ⟨e, he, by simp [hid, hun]⟩
    refine Alone.head .visit (.revoking c ⟨now, rest, id :: marked⟩) .none ?_ ?_
    · rw [hr]
      simp only [advance, Env.visit, hlock, Bool.false_eq_true, if_false]
      simp only [System.env, State.at, hany, if_true, Option.map_some]
    · rw [List.reverse_cons, List.append_assoc, List.singleton_append]
      exact ih (id :: marked) (List.perm_middle.nodup_iff.2 hnodup)
        fun id' h => hrows id' (List.mem_cons_of_mem _ h)

/-- What the UPDATE marks is what `revokeAllByUserId` revokes. -/
theorem markRevoked_candidates (env : Env) (hids : (env.sessions.map (·.id)).Nodup) {userId : Uuid}
    {now : Date} : env.sessions.map (markRevoked ((env.candidates userId).reverse ++ []) now) =
      revokedAll userId now env.sessions := by
  refine List.map_congr_left fun e he => ?_
  have hiff : e.id ∈ (env.candidates userId).reverse ++ [] ↔
      (e.userId = userId && e.revokedAt.isNone) = true := by
    rw [List.append_nil, List.mem_reverse, mem_candidates]
    simp only [Bool.and_eq_true, decide_eq_true_eq, Option.isNone_iff_eq_none]
    constructor
    · rintro ⟨x, hx, hid, hu, hrev⟩
      rw [← List.inj_on_of_nodup_map hids hx he hid]; exact ⟨hu, hrev⟩
    · rintro ⟨hu, hrev⟩; exact ⟨e, he, rfl, hu, hrev⟩
  simp only [markRevoked, hiff]

variable {p : RefreshPorts}

/-- The first steps of a refresh whose token finds a row. -/
theorem select_alone (hcap : S.capacity = none) (hr : S.requests i = .refresh r)
    (hfree : ∀ j id, (s.phase j).holds id = false) {sessions sessions' : List SessionEntity}
    {e : SessionEntity} (hf : findByRefreshTokenHash r.presentedHash sessions = some e) {q : Phase}
    (h : Alone S s i sessions (.locked e.toAggregate) sessions' q) :
    Alone S s i sessions .requested sessions' q := by
  refine Alone.head .begin .begun .none ?_ ?_
  · rw [hr, advance, if_pos (connection_at hcap)]
  refine Alone.head .select (.locked e.toAggregate) .none ?_ h
  have hlock : (S.env (s.at i sessions .begun)).locked e.id = false := by
    rw [locked_at hfree]; simp [Phase.holds, Phase.rowLock, Phase.update]
  have hf' : findByRefreshTokenHash r.presentedHash
      (S.env (s.at i (Effect.none.apply sessions) .begun)).sessions = some e := hf
  rw [hr]
  simp only [advance, hf']
  exact if_neg (by rw [show Effect.none.apply sessions = sessions from rfl, hlock]; simp)

/-- A reuse, alone: every un-revoked session of the user is revoked. -/
theorem reuse_alone (hcap : S.capacity = none) (hr : S.requests i = .refresh r)
    (hfree : ∀ j id, (s.phase j).holds id = false) {sessions : List SessionEntity}
    (hs : TableOK sessions) {e : SessionEntity} (he : e ∈ sessions) (hrev : e.revoked) (now : Date) :
    Alone S s i sessions (.locked e.toAggregate) (revokedAll e.userId now sessions)
      (.failed .refreshTokenReuseDetected) := by
  set c := e.toAggregate.markReuseDetected now with hc
  have hcb : rotateCallback (S.newSession i) now e.toAggregate = .reuse c := if_pos hrev
  refine Alone.head (.callback now) (.reuse c) .none (by rw [hr, advance, hcb]) ?_
  set env := S.env (s.at i sessions (.reuse c)) with henv
  refine Alone.head (.startRevokeAll now) (.revoking c ⟨now, env.candidates e.userId, []⟩) .none
    (by rw [hr, advance]; exact if_pos (connection_at hcap)) ?_
  have hvisits := visits_alone c now hr hfree (env.candidates e.userId) []
    (by rw [List.append_nil]; exact candidates_nodup hs.ids _) (fun id hid => by
      obtain ⟨x, hx, hxid, -, hun⟩ := mem_candidates.1 hid
      refine ⟨fun heq => ?_, x, hx, hxid, hun⟩
      obtain rfl := hs.id_inj hx he (hxid.trans heq)
      simp [SessionEntity.revoked, hun] at hrev)
  refine hvisits.trans (Alone.head .endRevokeAll (.revokedAll c)
    (.revokeAll ((env.candidates e.userId).reverse ++ []) now) (by rw [hr]; rfl) ?_)
  refine Alone.head .rollback (.failed .refreshTokenReuseDetected) .none
    (by rw [hr]; rfl) ?_
  have htable : (Effect.revokeAll ((env.candidates e.userId).reverse ++ []) now).apply sessions =
      revokedAll e.userId now sessions := markRevoked_candidates env hs.ids
  rw [← htable]
  exact Alone.refl _ _

/-- A reuse whose UPDATE fails, alone. -/
theorem unrevoked_alone (hr : S.requests i = .refresh r) {sessions : List SessionEntity} {e : SessionEntity}
    (hrev : e.revoked) (now : Date) :
    Alone S s i sessions (.locked e.toAggregate) sessions (.failed .failure) := by
  have hcb : rotateCallback (S.newSession i) now e.toAggregate = .reuse (e.toAggregate.markReuseDetected now) :=
    if_pos hrev
  refine Alone.head (.callback now) (.reuse (e.toAggregate.markReuseDetected now)) .none
    (by rw [hr, advance, hcb]) ?_
  exact Alone.head .abort _ _ (by rw [hr]; rfl) (Alone.refl _ _)

/-- The calls after the commit, alone. -/
theorem answer_alone (hcap : S.capacity = none) (hr : S.requests i = .refresh r)
    (sessions : List SessionEntity) (c : SessionAggregate) :
    Alone S s i sessions (.committed c) sessions (.answered p.answer) := by
  have hconn : ∀ q, (S.env (s.at i sessions q)).connection = true := fun q => connection_at hcap
  unfold RefreshPorts.answer
  cases hu : p.findById with
  | null =>
    exact Alone.head (.findUser .null) _ _ (by rw [hr, advance, if_pos (hconn _)]) (Alone.refl _ _)
  | throws =>
    exact Alone.head (.findUser .throws) _ _ (by rw [hr, advance, if_pos (hconn _)]) (Alone.refl _ _)
  | found =>
    refine Alone.head (.findUser .found) (.userFound c) .none
      (by rw [hr, advance, if_pos (hconn _)]) ?_
    cases hm : p.findMemberships with
    | false =>
      exact Alone.head (.findMemberships false) _ _ (by rw [hr]; exact if_pos (hconn _)) (Alone.refl _ _)
    | true =>
      refine Alone.head (.findMemberships true) (.membershipsFound c) .none
        (by rw [hr]; exact if_pos (hconn _)) ?_
      exact Alone.head (.sign p.sign) _ _ (by rw [hr]; rfl) (Alone.refl _ _)

/-- The rotation of a live session, alone: stored, or rolled back when a statement fails. -/
theorem rotate_alone (hcap : S.capacity = none) (hr : S.requests i = .refresh r)
    (hgen : p.generated = S.newSession i) {sessions : List SessionEntity} (hs : TableOK sessions)
    (hf : Command.fresh sessions p.generated = true) {e : SessionEntity} (he : e ∈ sessions)
    (hl : Live p e) :
    if p.insertSuccessor && p.updatePredecessor then
      Alone S s i sessions (.locked e.toAggregate) (rotatedTable p e sessions) (.answered p.answer)
    else Alone S s i sessions (.locked e.toAggregate) sessions (.failed .failure) := by
  have hcb : rotateCallback (S.newSession i) p.now e.toAggregate = .rotate (rotation p e) :=
    hgen ▸ rotateCallback_live hl
  have hhead : ∀ {sessions' q}, Alone S s i sessions (.rotating (rotation p e)) sessions' q →
      Alone S s i sessions (.locked e.toAggregate) sessions' q := fun h =>
    Alone.head (.callback p.now) (.rotating (rotation p e)) .none
      (by rw [hr, advance, hcb]) h
  have hins : (saveSession sessions (rotation p e).created.toEntity).isSome = true := by
    rw [saveSession_insert (fresh_iff.1 hf)]; rfl
  have hinsert : ∀ {sessions' q}, Alone S s i sessions (.inserted (rotation p e)) sessions' q →
      Alone S s i sessions (.rotating (rotation p e)) sessions' q := fun h =>
    Alone.head .insertSuccessor (.inserted (rotation p e)) .none
      (by rw [hr]; exact if_pos hins) h
  cases h1 : p.insertSuccessor with
  | false => exact hhead (Alone.head .abort _ _ (by rw [hr]; rfl) (Alone.refl _ _))
  | true =>
    cases h2 : p.updatePredecessor with
    | false => exact hhead (hinsert (Alone.head .abort _ _ (by rw [hr]; rfl) (Alone.refl _ _)))
    | true =>
      refine hhead (hinsert (Alone.head .updatePredecessor (.updated (rotation p e)) .none
        (by rw [hr]; exact if_pos (by simp [rotation, SessionAggregate.revoke,
          SessionAggregate.touch, NewSession.build])) ?_))
      refine Alone.head .commit (.committed (rotation p e).created) _ (by rw [hr]; rfl) ?_
      have htable : (Effect.rotate (rotation p e).revoked.toEntity
          (rotation p e).created.toEntity).apply sessions = rotatedTable p e sessions := by
        rw [Effect.apply, saveRotated_rotation hs hf he]; rfl
      rw [show Effect.none.apply sessions = sessions from rfl, htable]
      exact answer_alone hcap hr _ _

/-- The phase in which a refresh ends as its handler does. -/
def EndsAs (res : EStateM.Result AuthError (List SessionEntity) Unit) (q : Phase) : Prop :=
  match res with
  | .ok () _ => q = .answered (.ok ())
  | .error err _ => q = .failed err ∨ q = .answered (.error err)

/-- **A refresh that runs alone does what its handler does.** -/
theorem refresh_solo (hcap : S.capacity = none) (hr : S.requests i = .refresh r)
    (hp : s.phase i = .requested) (hfree : ∀ j id, (s.phase j).holds id = false)
    (hs : TableOK s.sessions) (hgen : p.generated = S.newSession i)
    (hf : Command.fresh s.sessions p.generated = true) :
    ∃ (evs : List Event) (t : State ι), exec S.step s (evs.map (Prod.mk i)) = some t ∧
      t.sessions = table ((refreshSession p r.presentedHash).run s.sessions) ∧
      EndsAs ((refreshSession p r.presentedHash).run s.sessions) (t.phase i) ∧
      ∀ j, j ≠ i → t.phase j = s.phase j := by
  have key : ∃ q, EndsAs ((refreshSession p r.presentedHash).run s.sessions) q ∧
      Alone S s i s.sessions .requested
        (table ((refreshSession p r.presentedHash).run s.sessions)) q := by
    cases hfind : findByRefreshTokenHash r.presentedHash s.sessions with
    | none =>
      rw [refresh_unknown hfind]
      refine ⟨.failed .invalidRefreshToken, Or.inl rfl, ?_⟩
      refine Alone.head .begin .begun .none
        (by rw [hr, advance, if_pos (connection_at hcap)]) ?_
      refine Alone.head .select _ .none ?_ (Alone.refl _ _)
      rw [hr, advance, show (S.env (s.at i (Effect.none.apply s.sessions) .begun)).sessions =
        s.sessions from rfl, hfind]
    | some e =>
      obtain ⟨he, -⟩ := findByRefreshTokenHash_some hfind
      cases hrev : e.revokedAt with
      | some d =>
        have hrev : e.revoked := by simp [SessionEntity.revoked, hrev]
        cases hok : p.revokeAllByUserId with
        | true =>
          rw [refresh_reuse hfind hrev hok]
          exact ⟨_, Or.inl rfl, select_alone hcap hr hfree hfind (reuse_alone hcap hr hfree hs he hrev _)⟩
        | false =>
          rw [refresh_unrevoked hfind hrev hok]
          exact ⟨_, Or.inl rfl, select_alone hcap hr hfree hfind (unrevoked_alone hr hrev p.now)⟩
      | none =>
        cases hx : e.refreshTokenExpiresAt.le p.now with
        | true =>
          rw [refresh_expired hfind hrev hx]
          refine ⟨_, Or.inl rfl, select_alone hcap hr hfree hfind
            (Alone.head (.callback p.now) _ .none ?_ (Alone.refl _ _))⟩
          have hcb : rotateCallback (S.newSession i) p.now e.toAggregate = .expired := by
            simp [rotateCallback, SessionAggregate.isRevoked, SessionAggregate.isExpired,
              SessionEntity.toAggregate, hrev, hx]
          rw [hr, advance, hcb]
        | false =>
          have hrun := rotate_alone hcap hr hgen hs hf he ⟨hrev, hx⟩ (s := s)
          cases hok : p.insertSuccessor && p.updatePredecessor with
          | false =>
            rw [refresh_unsaved hfind ⟨hrev, hx⟩ (Or.inl hok)]
            rw [hok] at hrun
            exact ⟨_, Or.inl rfl, select_alone hcap hr hfree hfind hrun⟩
          | true =>
            rw [refresh_rotate hfind ⟨hrev, hx⟩ hok (saveRotated_rotation hs hf he)]
            rw [hok] at hrun
            refine ⟨.answered p.answer, ?_, ?_⟩
            · cases p.answer with
              | ok u => rfl
              | error err => exact Or.inr rfl
            · cases hans : p.answer <;> rw [hans] at hrun <;>
                exact select_alone hcap hr hfree hfind hrun
  obtain ⟨q, hend, evs, hevs⟩ := key
  have hat : s.at i s.sessions .requested = s := by
    rw [State.at, ← hp, Function.update_eq_self]
  rw [hat] at hevs
  exact ⟨evs, _, hevs, rfl, by simpa [State.at] using hend,
    fun j hj => by simp [State.at, Function.update_of_ne hj]⟩

end AccountApi

import AccountApi.Spec.Rotation

/-!
# What one step of a request can do

`Move` lists the steps of `advance`, one constructor for each branch of the
handlers, with the guards under which it is taken (`advance_move`). Every
invariant of the session system is proved by cases on it.
-/

namespace AccountApi

open Transition

/-- The steps of one request. -/
inductive Move (env : Env) (new : NewSession) : Request → Event → Phase → Phase → Effect → Prop
  | begin (r) : env.connection = true → Move env new (.refresh r) .begin .requested .begun .none
  | selectNone (r) : findByRefreshTokenHash r.presentedHash env.sessions = none →
      Move env new (.refresh r) .select .begun (.failed .invalidRefreshToken) .none
  | select (r) (e) : findByRefreshTokenHash r.presentedHash env.sessions = some e →
      env.locked e.id = false →
      Move env new (.refresh r) .select .begun (.locked e.toAggregate) .none
  | reuse (r) (now) (c c') : rotateCallback new now c = .reuse c' →
      Move env new (.refresh r) (.callback now) (.locked c) (.reuse c') .none
  | expired (r) (now) (c) : rotateCallback new now c = .expired →
      Move env new (.refresh r) (.callback now) (.locked c) (.failed .invalidRefreshToken) .none
  | rotate (r) (now) (c) (res) : rotateCallback new now c = .rotate res →
      Move env new (.refresh r) (.callback now) (.locked c) (.rotating res) .none
  | insert (r) (res) : (saveSession env.sessions res.created.toEntity).isSome = true →
      Move env new (.refresh r) .insertSuccessor (.rotating res) (.inserted res) .none
  | insertFails (r) (res) : (saveSession env.sessions res.created.toEntity).isSome = false →
      Move env new (.refresh r) .insertSuccessor (.rotating res) (.failed .failure) .none
  | update (r) (res) : (res.revoked.replacedBySessionId = some res.created.id ∨
        ∃ e ∈ env.sessions, res.revoked.replacedBySessionId = some e.id) →
      Move env new (.refresh r) .updatePredecessor (.inserted res) (.updated res) .none
  | updateFails (r) (res) :
      Move env new (.refresh r) .updatePredecessor (.inserted res) (.failed .failure) .none
  | commit (r) (res) : Move env new (.refresh r) .commit (.updated res) (.committed res.created)
      (.rotate res.revoked.toEntity res.created.toEntity)
  | startRevokeAll (r) (now) (c) : env.connection = true →
      Move env new (.refresh r) (.startRevokeAll now) (.reuse c)
        (.revoking c (env.startRevokeAll c.userId now)) .none
  | visit (r) (c) (u u') : env.visit u = some u' →
      Move env new (.refresh r) .visit (.revoking c u) (.revoking c u') .none
  | endRevokeAll (r) (c) (u) : u.pending = [] →
      Move env new (.refresh r) .endRevokeAll (.revoking c u) (.revokedAll c)
        (.revokeAll u.marked u.startedAt)
  | rollback (r) (c) : Move env new (.refresh r) .rollback (.revokedAll c)
      (.failed .refreshTokenReuseDetected) .none
  | findUser (r) (c) : env.connection = true →
      Move env new (.refresh r) (.findUser .found) (.committed c) (.userFound c) .none
  | noUser (r) (c) (answer) (e) : Move env new (.refresh r) (.findUser answer) (.committed c)
      (.answered (.error e)) .none
  | findMemberships (r) (c) : env.connection = true →
      Move env new (.refresh r) (.findMemberships true) (.userFound c) (.membershipsFound c) .none
  | noMemberships (r) (c) : Move env new (.refresh r) (.findMemberships false) (.userFound c)
      (.answered (.error .failure)) .none
  | sign (r) (c) (ok) (res) : Move env new (.refresh r) (.sign ok) (.membershipsFound c)
      (.answered res) .none
  | abort (r) (p) : p.connections ≠ 0 → Move env new (.refresh r) .abort p (.failed .failure) .none
  | login (l) (now) : env.connection = true →
      Move env new (.login l) (.saveSession now) .requested .loggedIn
        (.save (new.build l.userId now).toEntity)
  | loginFails (l) (now) : Move env new (.login l) (.saveSession now) .requested (.failed .failure) .none
  | startBulk (u) (now) : env.connection = true →
      Move env new (.revokeAll u) (.startRevokeAll now) .requested
        (.bulk (env.startRevokeAll u now)) .none
  | visitBulk (i) (u u') : env.visit u = some u' →
      Move env new (.revokeAll i) .visit (.bulk u) (.bulk u') .none
  | endBulk (i) (u) : u.pending = [] →
      Move env new (.revokeAll i) .endRevokeAll (.bulk u) .bulkDone (.revokeAll u.marked u.startedAt)
  | abortBulk (i) (u) : Move env new (.revokeAll i) .abort (.bulk u) (.failed .failure) .none

theorem advance_move {env : Env} {new : NewSession} {req : Request} {ev : Event} {p p' : Phase}
    {eff : Effect} (h : advance env new req ev p = some (p', eff)) : Move env new req ev p p' eff := by
  unfold advance at h
  split at h
  all_goals try (cases h; done)
  · split at h <;> cases h
    exact .begin _ ‹_›
  · split at h
    · cases h; exact .selectNone _ ‹_›
    · split at h <;> cases h
      exact .select _ _ ‹_› (Bool.eq_false_iff.2 ‹_›)
  · split at h <;> cases h
    · exact .reuse _ _ _ _ ‹_›
    · exact .expired _ _ _ ‹_›
    · exact .rotate _ _ _ _ ‹_›
  · split at h <;> cases h
    · exact .insert _ _ ‹_›
    · exact .insertFails _ _ (Bool.eq_false_iff.2 ‹_›)
  · split at h <;> cases h
    · rename_i hfk
      exact .update _ _ (by simpa using hfk)
    · exact .updateFails _ _
  · cases h; exact .commit _ _
  · split at h <;> cases h
    exact .startRevokeAll _ _ _ ‹_›
  · simp only [Option.map_eq_some_iff, Prod.mk.injEq] at h
    obtain ⟨u', hu, rfl, rfl⟩ := h
    exact .visit _ _ _ _ hu
  · split at h <;> cases h
    exact .endRevokeAll _ _ _ ‹_›
  · cases h; exact .rollback _ _
  · split at h
    · split at h <;> cases h
      · exact .findUser _ _ ‹_›
      · exact .noUser _ _ _ _
      · exact .noUser _ _ _ _
    · cases h
  · rename_i ok _
    split at h <;> cases h
    cases ok
    · exact .noMemberships _ _
    · exact .findMemberships _ _ ‹_›
  · cases h; exact .sign _ _ _ _
  · split at h <;> cases h
    exact .abort _ _ ‹_›
  · split at h
    · split at h <;> cases h
      · exact .login _ _ ‹_›
      · exact .loginFails _ _
    · cases h
  · split at h <;> cases h
    exact .startBulk _ _ ‹_›
  · simp only [Option.map_eq_some_iff, Prod.mk.injEq] at h
    obtain ⟨u', hu, rfl, rfl⟩ := h
    exact .visitBulk _ _ _ hu
  · split at h <;> cases h
    exact .endBulk _ _ ‹_›
  · cases h; exact .abortBulk _ _

namespace System

variable {ι : Type} [Fintype ι] {S : System ι} {s t : State ι}

@[simp] theorem env_sessions : (S.env s).sessions = s.sessions := rfl

@[simp] theorem env_locked {id : Uuid} :
    (S.env s).locked id = false ↔ ∀ i, (s.phase i).holds id = false := by
  simp [env]

variable [DecidableEq ι]

/-- **A step is a move of one request**, applied to the table. -/
theorem step_move {i : ι} {ev : Event} (h : S.step s (i, ev) = some t) :
    ∃ p eff, Move (S.env s) (S.newSession i) (S.requests i) ev (s.phase i) p eff ∧
      t = ⟨eff.apply s.sessions, Function.update s.phase i p⟩ := by
  simp only [step, Option.map_eq_some_iff] at h
  obtain ⟨⟨p, eff⟩, hq, rfl⟩ := h
  exact ⟨p, eff, advance_move hq, rfl⟩

end System

end AccountApi

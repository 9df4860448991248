import AccountApi.Spec.SessionCommands
import AccountApi.Proof.SessionInv

/-!
# What one login or refresh leaves behind

Each branch of `RefreshSessionCommandHandler.execute` as one equation
(`refresh_unknown`, `refresh_reuse`, `refresh_unrevoked`, `refresh_expired`,
`refresh_unsaved`, `refresh_rotate`), over the equations of the calls it makes.
-/

namespace AccountApi

open Handler

variable {α : Type} {s t : List SessionEntity} {p : RefreshPorts} {hash : TokenHash}
  {e : SessionEntity}

@[simp] theorem run_throw (err : AuthError) : (throw err : Handler α).run s = .error err s := rfl

@[simp] theorem run_call (ok : Bool) :
    (call ok).run s = if ok then .ok () s else .error .failure s := by
  cases ok <;> rfl

@[simp] theorem run_revokeAllByUserId (ok : Bool) (userId : Uuid) (now : Date) :
    (revokeAllByUserId ok userId now).run s =
      if ok then .ok () (revokedAll userId now s) else .error .failure s := by
  cases ok <;> rfl

theorem run_save (ok : Bool) (session : SessionAggregate) :
    (save ok session).run s =
      if ok then (match saveSession s session.toEntity with
        | some t => .ok () t
        | none => .error .failure s) else .error .failure s := by
  cases ok
  · rfl
  · simp only [save, EStateM.run_bind, run_call, if_true, EStateM.run_get]
    cases saveSession s session.toEntity <;> rfl

theorem run_saveRotation (result : RotateResult) :
    (saveRotation p result).run s =
      if p.insertSuccessor && p.updatePredecessor then
        (match saveRotated s result.created.toEntity result.revoked.toEntity with
        | some t => .ok () t
        | none => .error .failure s) else .error .failure s := by
  cases hok : p.insertSuccessor && p.updatePredecessor
  · simp [saveRotation, hok]
  · simp only [saveRotation, EStateM.run_bind, run_call, hok, if_true, EStateM.run_get]
    cases saveRotated s result.created.toEntity result.revoked.toEntity <;> rfl

/-- How a refresh ends whose rotation is committed. -/
def RefreshPorts.answer (p : RefreshPorts) : Except AuthError Unit :=
  match p.findById with
  | .found => if p.findMemberships && p.sign then .ok () else .error .failure
  | .null => .error .invalidRefreshToken
  | .throws => .error .failure

theorem refresh_unknown (h : findByRefreshTokenHash hash s = none) :
    (refreshSession p hash).run s = .error .invalidRefreshToken s := by
  simp [refreshSession, rotate, h]

theorem rotateCallback_revoked (hr : e.revoked) : rotateCallback p.generated p.now e.toAggregate =
    .reuse (e.toAggregate.markReuseDetected p.now) := if_pos hr

theorem refresh_reuse (h : findByRefreshTokenHash hash s = some e) (hr : e.revoked)
    (hok : p.revokeAllByUserId = true) :
    (refreshSession p hash).run s =
      .error .refreshTokenReuseDetected (revokedAll e.userId p.now s) := by
  simp only [refreshSession, rotate, EStateM.run_bind, EStateM.run_get, h, onLocked, rotateCallback_revoked hr,
    run_revokeAllByUserId, hok, if_true, run_throw]
  rfl

/-- The UPDATE of the reuse branch fails. -/
theorem refresh_unrevoked (h : findByRefreshTokenHash hash s = some e) (hr : e.revoked)
    (hok : p.revokeAllByUserId = false) : (refreshSession p hash).run s = .error .failure s := by
  simp only [refreshSession, rotate, EStateM.run_bind, EStateM.run_get, h, onLocked, rotateCallback_revoked hr,
    run_revokeAllByUserId, hok, Bool.false_eq_true, if_false]

theorem refresh_expired (h : findByRefreshTokenHash hash s = some e) (hr : e.revokedAt = none)
    (hx : e.refreshTokenExpiresAt.le p.now = true) :
    (refreshSession p hash).run s = .error .invalidRefreshToken s := by
  have hc : rotateCallback p.generated p.now e.toAggregate = .expired := by
    simp [rotateCallback, SessionAggregate.isRevoked, SessionAggregate.isExpired,
      SessionEntity.toAggregate, hr, hx]
  simp [refreshSession, rotate, h, onLocked, hc]

/-- What a refresh of the live session `e` saves. -/
def rotation (p : RefreshPorts) (e : SessionEntity) : RotateResult :=
  ⟨e.toAggregate.revoke p.generated.id p.now, p.generated.build e.userId p.now⟩

/-- The presented session is neither revoked nor expired. -/
def Live (p : RefreshPorts) (e : SessionEntity) : Prop :=
  e.revokedAt = none ∧ e.refreshTokenExpiresAt.le p.now = false

theorem rotateCallback_live (h : Live p e) :
    rotateCallback p.generated p.now e.toAggregate = .rotate (rotation p e) := by
  simp [rotateCallback, SessionAggregate.isRevoked, SessionAggregate.isExpired,
    SessionEntity.toAggregate, h.1, h.2, rotation, NewSession.build]

theorem refresh_unsaved (h : findByRefreshTokenHash hash s = some e) (hl : Live p e)
    (hs : (p.insertSuccessor && p.updatePredecessor) = false ∨
      saveRotated s (rotation p e).created.toEntity (rotation p e).revoked.toEntity = none) :
    (refreshSession p hash).run s = .error .failure s := by
  have hsave : (saveRotation p (rotation p e)).run s = .error .failure s := by
    rw [run_saveRotation]
    rcases hs with hs | hs
    · simp [hs]
    · simp [hs]
  simp [refreshSession, rotate, h, onLocked, rotateCallback_live hl, hsave]

theorem refresh_rotate (h : findByRefreshTokenHash hash s = some e) (hl : Live p e)
    (hs : (p.insertSuccessor && p.updatePredecessor) = true)
    (ht : saveRotated s (rotation p e).created.toEntity (rotation p e).revoked.toEntity = some t) :
    (refreshSession p hash).run s = match p.answer with
      | .ok () => .ok () t
      | .error err => .error err t := by
  have hsave : (saveRotation p (rotation p e)).run s = .ok () t := by
    rw [run_saveRotation, if_pos hs, ht]
  simp only [refreshSession, rotate, h, onLocked, rotateCallback_live hl, hsave, EStateM.run_bind,
    EStateM.run_get, EStateM.run_pure]
  unfold RefreshPorts.answer
  cases p.findById with
  | found => cases p.findMemberships <;> cases p.sign <;> rfl
  | null | throws => rfl

/-- The constraints of the table: the primary key and the unique token hash. -/
structure TableOK (s : List SessionEntity) : Prop where
  ids : (s.map (·.id)).Nodup
  hashes : (s.map (·.refreshTokenHash)).Nodup

theorem TableOK.id_inj (hs : TableOK s) {x y : SessionEntity} (hx : x ∈ s) (hy : y ∈ s)
    (h : x.id = y.id) : x = y := List.inj_on_of_nodup_map hs.ids hx hy h

/-- The row a token finds is the only one with its hash. -/
theorem TableOK.find (hs : TableOK s) (he : e ∈ s) (hh : e.refreshTokenHash = hash) :
    findByRefreshTokenHash hash s = some e := by
  cases hf : findByRefreshTokenHash hash s with
  | none => exact absurd hh (findByRefreshTokenHash_none.1 hf e he)
  | some x =>
    obtain ⟨hx, hxh⟩ := findByRefreshTokenHash_some hf
    rw [List.inj_on_of_nodup_map hs.hashes hx he (hxh.trans hh.symm)]

theorem fresh_iff {n : NewSession} : Command.fresh s n = true ↔
    ∀ e ∈ s, e.id ≠ n.id ∧ e.refreshTokenHash ≠ n.refreshTokenHash := by
  simp [Command.fresh]

/-- The table after the rotation of `e`: its row rewritten, its successor added. -/
def rotatedTable (p : RefreshPorts) (e : SessionEntity) (s : List SessionEntity) : List SessionEntity :=
  (s.map fun x => if x.id = e.id then (rotation p e).revoked.toEntity else x) ++
    [(rotation p e).created.toEntity]

theorem saveRotated_rotation (hs : TableOK s) (hf : Command.fresh s p.generated = true) (he : e ∈ s) :
    saveRotated s (rotation p e).created.toEntity (rotation p e).revoked.toEntity =
      some (rotatedTable p e s) :=
  saveRotated_eq hs.hashes he rfl rfl (fresh_iff.1 hf)

/-- **The tables a refresh can leave**: the old one, the rotated one, or the one without an
un-revoked session of the user when the presented session was revoked. -/
theorem refresh_table (hash : TokenHash) (hs : TableOK s) (hf : Command.fresh s p.generated = true) :
    table ((refreshSession p hash).run s) = s ∨
      ∃ e ∈ s, e.refreshTokenHash = hash ∧
        ((e.revoked ∧ p.revokeAllByUserId = true ∧
            table ((refreshSession p hash).run s) = revokedAll e.userId p.now s) ∨
          (Live p e ∧ table ((refreshSession p hash).run s) = rotatedTable p e s)) := by
  cases hfind : findByRefreshTokenHash hash s with
  | none => left; rw [refresh_unknown hfind]; rfl
  | some e =>
    obtain ⟨he, hh⟩ := findByRefreshTokenHash_some hfind
    cases hr : e.revokedAt with
    | some d =>
      have hrev : e.revoked := by simp [SessionEntity.revoked, hr]
      cases hok : p.revokeAllByUserId with
      | true => exact Or.inr ⟨e, he, hh, Or.inl ⟨hrev, rfl, by rw [refresh_reuse hfind hrev hok]; rfl⟩⟩
      | false => left; rw [refresh_unrevoked hfind hrev hok]; rfl
    | none =>
      cases hx : e.refreshTokenExpiresAt.le p.now with
      | true => left; rw [refresh_expired hfind hr hx]; rfl
      | false =>
        cases hok : p.insertSuccessor && p.updatePredecessor with
        | false => left; rw [refresh_unsaved hfind ⟨hr, hx⟩ (Or.inl hok)]; rfl
        | true =>
          refine Or.inr ⟨e, he, hh, Or.inr ⟨⟨hr, hx⟩, ?_⟩⟩
          rw [refresh_rotate hfind ⟨hr, hx⟩ hok (saveRotated_rotation hs hf he)]
          cases p.answer <;> rfl

/-- A login does everything that can fail before it stores its session. -/
theorem run_loginUser (p : LoginPorts) : (∃ err, (loginUser p).run s = .error err s) ∨
    (loginUser p).run s = (save p.insert (p.generated.build p.userId p.now)).run s := by
  unfold loginUser
  cases p.verifyCredentials
  · exact Or.inl ⟨_, rfl⟩
  cases p.findByEmail
  case null => exact Or.inl ⟨_, rfl⟩
  case throws => exact Or.inl ⟨_, rfl⟩
  cases p.findMemberships
  · exact Or.inl ⟨_, rfl⟩
  cases p.setPlatformAdmin
  · exact Or.inl ⟨_, rfl⟩
  cases p.sign
  · exact Or.inl ⟨_, rfl⟩
  exact Or.inr rfl

/-- **A failed login leaves the table as it was.** -/
theorem login_failed {p : LoginPorts} {err : AuthError} (h : (loginUser p).run s = .error err t) :
    t = s := by
  rcases run_loginUser (s := s) p with ⟨err', h'⟩ | h'
  · rw [h'] at h; cases h; rfl
  · rw [h', run_save] at h
    split at h
    · split at h <;> cases h; rfl
    · cases h; rfl

/-- A login adds its session or leaves the table alone. -/
theorem login_table {p : LoginPorts} (hf : Command.fresh s p.generated = true) :
    table ((loginUser p).run s) = s ∨
      table ((loginUser p).run s) = s ++ [(p.generated.build p.userId p.now).toEntity] := by
  have hins : saveSession s (p.generated.build p.userId p.now).toEntity =
      some (s ++ [(p.generated.build p.userId p.now).toEntity]) := saveSession_insert (fresh_iff.1 hf)
  rcases run_loginUser (s := s) p with ⟨err, h⟩ | h
  · left; rw [h]; rfl
  · rw [h, run_save, hins]
    cases p.insert
    · exact Or.inl rfl
    · exact Or.inr rfl

/-- Every command leaves the old rows, perhaps rewritten, and adds at most the row it generated. -/
theorem execute_table (hs : TableOK s) {c : Command} (hf : Command.fresh s c.generated = true) :
    ∃ f ins, table (c.execute.run s) = s.map f ++ ins ∧ ins.length ≤ 1 ∧
      (∀ x ∈ s, (f x).id = x.id ∧ (f x).refreshTokenHash = x.refreshTokenHash) ∧
      ∀ n ∈ ins, n.id = c.generated.id ∧ n.refreshTokenHash = c.generated.refreshTokenHash := by
  have hsame : ∀ t : List SessionEntity, t = s → ∃ f ins, t = s.map f ++ ins ∧ ins.length ≤ 1 ∧
      (∀ x ∈ s, (f x).id = x.id ∧ (f x).refreshTokenHash = x.refreshTokenHash) ∧
      ∀ n ∈ ins, n.id = c.generated.id ∧ n.refreshTokenHash = c.generated.refreshTokenHash := by
    rintro t rfl
    exact ⟨id, [], by simp, by simp, fun _ _ => ⟨rfl, rfl⟩, by simp⟩
  cases c with
  | login p =>
    rcases login_table (p := p) hf with h | h
    · exact hsame _ h
    · refine ⟨id, _, by rw [List.map_id]; exact h, le_rfl, fun _ _ => ⟨rfl, rfl⟩, ?_⟩
      simp only [List.mem_singleton, forall_eq]
      exact ⟨rfl, rfl⟩
  | refresh p hash =>
    rcases refresh_table hash hs hf with h | ⟨e, he, -, ⟨-, -, h⟩ | ⟨-, h⟩⟩
    · exact hsame _ h
    · refine ⟨_, [], by rw [List.append_nil]; exact h, by simp, fun x _ => ?_, by simp⟩
      split <;> exact ⟨rfl, rfl⟩
    · refine ⟨_, _, h, le_rfl, fun x hx => ?_, ?_⟩
      · split
        · rename_i hid
          obtain rfl := hs.id_inj hx he hid
          exact ⟨rfl, rfl⟩
        · exact ⟨rfl, rfl⟩
      · simp only [List.mem_singleton, forall_eq]
        exact ⟨rfl, rfl⟩

/-- **Every command keeps the constraints of the table.** -/
theorem tableOK_step (hs : TableOK s) {c : Command} (h : Command.step s c = some t) : TableOK t := by
  simp only [Command.step, Option.ite_none_right_eq_some, Option.some.injEq] at h
  obtain ⟨hf, rfl⟩ := h
  obtain ⟨f, ins, ht, hlen, hf', hn⟩ := execute_table hs hf
  have hfresh := fresh_iff.1 hf
  rw [ht]
  constructor
  · refine Table.nodup_map_append hs.ids (fun e he => (hf' e he).1) hlen fun n hin e he => ?_
    rw [(hn n hin).1]; exact (hfresh e he).1
  · refine Table.nodup_map_append hs.hashes (fun e he => (hf' e he).2) hlen fun n hin e he => ?_
    rw [(hn n hin).2]; exact (hfresh e he).2

end AccountApi

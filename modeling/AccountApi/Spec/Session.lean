import AccountApi.Lib.Table
import Mathlib.Data.Int.Notation
import Mathlib.Data.Int.Order.Basic

/-!
# Sessions: the rows and the aggregate

One `SessionEntity` is one row of the `session` table: a node of a user's chain
of refresh tokens, linked to its successor by `replacedBySessionId`.
`SessionAggregate` is the domain object the handlers work on, `rotateCallback`
the decision `RefreshSessionCommandHandler` takes on a locked row.
-/

namespace AccountApi

/-- Identifiers; only their equality is ever used. -/
abbrev Uuid := ℕ

/-- SHA-256 digests of refresh tokens; only their equality is ever used. -/
abbrev TokenHash := ℕ

/-- A JavaScript `Date`: milliseconds since the epoch, or the invalid date. -/
inductive Date where
  | invalid
  | millis (ms : ℤ)
  deriving DecidableEq, Repr

/-- `a.getTime() <= b.getTime()`: false as soon as one of them is `NaN`. -/
def Date.le : Date → Date → Bool
  | .millis a, .millis b => decide (a ≤ b)
  | _, _ => false

/-- A row of the `session` table. -/
structure SessionEntity where
  id : Uuid
  userId : Uuid
  refreshTokenHash : TokenHash
  refreshTokenExpiresAt : Date
  revokedAt : Option Date
  replacedBySessionId : Option Uuid
  createdAt : Date
  updatedAt : Date
  deriving DecidableEq, Repr

/-- The row carries a `revoked_at`. -/
abbrev SessionEntity.revoked (e : SessionEntity) : Prop := e.revokedAt.isSome = true

structure SessionAggregate where
  id : Uuid
  userId : Uuid
  refreshTokenHash : TokenHash
  expiresAt : Date
  revokedAt : Option Date
  replacedBySessionId : Option Uuid
  createdAt : Date
  updatedAt : Date
  deriving DecidableEq, Repr

namespace SessionAggregate

def touch (s : SessionAggregate) (now : Date) : SessionAggregate := { s with updatedAt := now }

def isExpired (s : SessionAggregate) (now : Date) : Bool := s.expiresAt.le now

def isRevoked (s : SessionAggregate) : Bool := s.revokedAt.isSome

/-- Marks the session consumed and links it to its successor. -/
def revoke (s : SessionAggregate) (replacedBySessionId : Uuid) (now : Date) : SessionAggregate :=
  { s with revokedAt := some now, replacedBySessionId := some replacedBySessionId }.touch now

def markReuseDetected (s : SessionAggregate) (now : Date) : SessionAggregate := s.touch now

end SessionAggregate

/-! ## `SessionTypeOrmMapper` -/

def SessionEntity.toAggregate (e : SessionEntity) : SessionAggregate where
  id := e.id
  userId := e.userId
  refreshTokenHash := e.refreshTokenHash
  expiresAt := e.refreshTokenExpiresAt
  revokedAt := e.revokedAt
  replacedBySessionId := e.replacedBySessionId
  createdAt := e.createdAt
  updatedAt := e.updatedAt

def SessionAggregate.toEntity (s : SessionAggregate) : SessionEntity where
  id := s.id
  userId := s.userId
  refreshTokenHash := s.refreshTokenHash
  refreshTokenExpiresAt := s.expiresAt
  revokedAt := s.revokedAt
  replacedBySessionId := s.replacedBySessionId
  createdAt := s.createdAt
  updatedAt := s.updatedAt

@[simp] theorem toEntity_toAggregate (e : SessionEntity) : e.toAggregate.toEntity = e := rfl
@[simp] theorem toEntity_id (s : SessionAggregate) : s.toEntity.id = s.id := rfl
@[simp] theorem toEntity_userId (s : SessionAggregate) : s.toEntity.userId = s.userId := rfl
@[simp] theorem toEntity_refreshTokenHash (s : SessionAggregate) :
    s.toEntity.refreshTokenHash = s.refreshTokenHash := rfl
@[simp] theorem toEntity_revokedAt (s : SessionAggregate) : s.toEntity.revokedAt = s.revokedAt := rfl
@[simp] theorem toEntity_replacedBySessionId (s : SessionAggregate) :
    s.toEntity.replacedBySessionId = s.replacedBySessionId := rfl

/-- `SET revoked_at = NOW()`; TypeORM adds the update-date column. -/
def SessionEntity.setRevokedAt (e : SessionEntity) (now : Date) : SessionEntity :=
  { e with revokedAt := some now, updatedAt := now }

@[simp] theorem setRevokedAt_id (e : SessionEntity) (now : Date) : (e.setRevokedAt now).id = e.id := rfl
@[simp] theorem setRevokedAt_revokedAt (e : SessionEntity) (now : Date) :
    (e.setRevokedAt now).revokedAt = some now := rfl

inductive AuthError where
  | invalidCredentials
  | invalidRefreshToken
  | refreshTokenReuseDetected
  /-- A statement, a cross-context query or the signature failed. -/
  | failure
  deriving DecidableEq, Repr

/-- The answer of `IUserLookupPort.findById`. -/
inductive Lookup where
  | found
  | null
  | throws
  deriving DecidableEq, Repr

/-! ## New sessions and the rotation callback -/

/-- What a request generates for the session it may store: `UuidValueObject.generate()`,
the hash of the new random refresh token, and `Date.now() + ttl`. -/
structure NewSession where
  id : Uuid
  refreshTokenHash : TokenHash
  expiresAt : Date
  deriving DecidableEq, Repr

/-- The chain `sessionBuilder.withId(…)…build()` of login and refresh. -/
def NewSession.build (n : NewSession) (userId : Uuid) (now : Date) : SessionAggregate where
  id := n.id
  userId := userId
  refreshTokenHash := n.refreshTokenHash
  expiresAt := n.expiresAt
  revokedAt := none
  replacedBySessionId := none
  createdAt := now
  updatedAt := now

/-- `IRotateResult`: the consumed session and its successor. -/
structure RotateResult where
  revoked : SessionAggregate
  created : SessionAggregate
  deriving DecidableEq, Repr

/-- What the callback of `rotate()` decides on the locked session. -/
inductive RotateDecision where
  | reuse (current : SessionAggregate)
  | expired
  | rotate (result : RotateResult)
  deriving DecidableEq, Repr

/-- The callback `RefreshSessionCommandHandler` passes to `rotate()`. -/
def rotateCallback (n : NewSession) (now : Date) (current : SessionAggregate) : RotateDecision :=
  if current.isRevoked then .reuse (current.markReuseDetected now)
  else if current.isExpired now then .expired
  else
    let created := n.build current.userId now
    .rotate ⟨current.revoke created.id now, created⟩

theorem rotateCallback_reuse {n : NewSession} {now : Date} {c c' : SessionAggregate}
    (h : rotateCallback n now c = .reuse c') :
    c.isRevoked = true ∧ c' = c.markReuseDetected now := by
  unfold rotateCallback at h
  split at h
  · rename_i hr; exact ⟨hr, by simpa using h.symm⟩
  · split at h <;> cases h

theorem rotateCallback_rotate {n : NewSession} {now : Date} {c : SessionAggregate}
    {res : RotateResult} (h : rotateCallback n now c = .rotate res) :
    c.isRevoked = false ∧ c.isExpired now = false ∧
      res = ⟨c.revoke n.id now, n.build c.userId now⟩ := by
  unfold rotateCallback at h
  split at h
  · cases h
  rename_i hr
  split at h
  · cases h
  rename_i he
  exact ⟨by simpa using hr, by simpa using he, by simpa [NewSession.build] using h.symm⟩

/-- `refresh_token_hash = :refreshTokenHash`. -/
def findByRefreshTokenHash (hash : TokenHash) (sessions : List SessionEntity) :
    Option SessionEntity :=
  sessions.find? fun e => e.refreshTokenHash = hash

theorem findByRefreshTokenHash_some {hash : TokenHash} {sessions : List SessionEntity}
    {e : SessionEntity} (h : findByRefreshTokenHash hash sessions = some e) :
    e ∈ sessions ∧ e.refreshTokenHash = hash :=
  ⟨List.mem_of_find?_eq_some h, by simpa using List.find?_some h⟩

theorem findByRefreshTokenHash_none {hash : TokenHash} {sessions : List SessionEntity} :
    findByRefreshTokenHash hash sessions = none ↔ ∀ e ∈ sessions, e.refreshTokenHash ≠ hash := by
  simp [findByRefreshTokenHash]

/-- `save(entity)`: an INSERT when no row has the entity's id, otherwise an UPDATE of the
columns that differ. `none` when the unique hash constraint rejects the statement. -/
def saveSession : List SessionEntity → SessionEntity → Option (List SessionEntity) :=
  Table.upsert (·.id) fun x e => x.refreshTokenHash = e.refreshTokenHash

theorem saveSession_insert {sessions : List SessionEntity} {e : SessionEntity}
    (h : ∀ x ∈ sessions, x.id ≠ e.id ∧ x.refreshTokenHash ≠ e.refreshTokenHash) :
    saveSession sessions e = some (sessions ++ [e]) :=
  Table.upsert_insert (fun x hx => (h x hx).1) fun x hx => by simpa using (h x hx).2

theorem saveSession_update {sessions : List SessionEntity} {e : SessionEntity}
    (hid : ∃ x ∈ sessions, x.id = e.id)
    (hh : ∀ x ∈ sessions, x.refreshTokenHash = e.refreshTokenHash → x.id = e.id) :
    saveSession sessions e = some (sessions.map fun x => if x.id = e.id then e else x) :=
  Table.upsert_update hid fun x hx h => hh x hx (by simpa using h)

/-- The two saves of a rotation, the successor's first. -/
def saveRotated (sessions : List SessionEntity) (created revoked : SessionEntity) :
    Option (List SessionEntity) :=
  (saveSession sessions created).bind fun s => saveSession s revoked

/-- A rotation adds the successor and rewrites the row of the predecessor. -/
theorem saveRotated_eq {sessions : List SessionEntity} {e created revoked : SessionEntity}
    (hhashes : (sessions.map (·.refreshTokenHash)).Nodup) (he : e ∈ sessions) (hid : revoked.id = e.id)
    (hhash : revoked.refreshTokenHash = e.refreshTokenHash)
    (hnew : ∀ x ∈ sessions, x.id ≠ created.id ∧ x.refreshTokenHash ≠ created.refreshTokenHash) :
    saveRotated sessions created revoked =
      some ((sessions.map fun x => if x.id = revoked.id then revoked else x) ++ [created]) := by
  have hne : created.id ≠ revoked.id := fun h => (hnew e he).1 (hid.symm.trans h.symm)
  rw [saveRotated, saveSession_insert hnew, Option.bind_some, saveSession_update
    ⟨e, List.mem_append_left _ he, hid.symm⟩]
  · simp only [List.map_append, List.map_cons, List.map_nil, if_neg hne]
  · intro x hx hxh
    rw [List.mem_append, List.mem_singleton] at hx
    rcases hx with hx | rfl
    · rw [List.inj_on_of_nodup_map hhashes hx he (hxh.trans hhash)]; exact hid.symm
    · exact absurd (hxh.trans hhash).symm (hnew e he).2

end AccountApi

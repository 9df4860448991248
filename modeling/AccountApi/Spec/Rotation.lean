import AccountApi.Spec.Session
import AccountApi.Lib.Run
import Mathlib.Data.Finset.Sort
import Mathlib.Data.Fintype.BigOperators
import Mathlib.Data.List.Sort
import Mathlib.Logic.Embedding.Basic

/-!
# Concurrent sessions: `rotate()` and `revokeAllByUserId()`

Any number of requests on one `session` table, interleaved statement by
statement. `sessions` holds the latest committed version of each row; what an
open transaction has written lives in its request's phase until it commits. Row
locks are exclusive: a row is locked by the transaction that selected it `FOR
UPDATE` and by a running UPDATE that has marked it, until that transaction ends.

A refresh (`RefreshSessionCommandHandler.execute`) takes one pool connection when
its transaction begins and gives it back at commit or rollback. In the reuse
branch it awaits `revokeAllByUserId`, an autocommitted UPDATE on a connection of
its own: its candidates are the un-revoked rows of the user in a snapshot taken
at its start, visited in the order `scanOrder`; it waits for the lock of each and
re-checks `revoked_at IS NULL` on the latest version.
-/

namespace AccountApi

open Transition

/-- `RefreshSessionCommand` with the hash of the presented token. -/
structure RefreshRequest where
  presentedHash : TokenHash
  expiresAt : Date
  deriving DecidableEq, Repr

/-- A login whose credentials were verified, about to store its session. -/
structure LoginRequest where
  userId : Uuid
  expiresAt : Date
  deriving DecidableEq, Repr

inductive Request where
  | refresh (r : RefreshRequest)
  | login (l : LoginRequest)
  | revokeAll (userId : Uuid)
  deriving DecidableEq, Repr

/-- A running `UPDATE "session" SET revoked_at = NOW() WHERE user_id = … AND revoked_at IS NULL`:
the candidates it has not visited yet and the rows it has marked and locked. -/
structure RevokeAll where
  startedAt : Date
  pending : List Uuid
  marked : List Uuid
  deriving DecidableEq, Repr

inductive Phase where
  | requested
  /-- `BEGIN` done, `SELECT … FOR UPDATE` next. -/
  | begun
  | locked (current : SessionAggregate)
  | reuse (current : SessionAggregate)
  | revoking (current : SessionAggregate) (update : RevokeAll)
  | revokedAll (current : SessionAggregate)
  /-- The callback returned, the INSERT of the successor is next. -/
  | rotating (result : RotateResult)
  | inserted (result : RotateResult)
  | updated (result : RotateResult)
  | committed (created : SessionAggregate)
  | userFound (created : SessionAggregate)
  | membershipsFound (created : SessionAggregate)
  /-- A refresh that ended after its rotation was committed. -/
  | answered (result : Except AuthError Unit)
  /-- A refresh that ended without having committed anything. -/
  | failed (error : AuthError)
  | loggedIn
  /-- A `revokeAllByUserId` issued on its own. -/
  | bulk (update : RevokeAll)
  | bulkDone
  deriving DecidableEq

namespace Phase

/-- The row locked `FOR UPDATE` by the open transaction. -/
def rowLock : Phase → Option Uuid
  | locked c | reuse c | revoking c _ | revokedAll c => some c.id
  | rotating r | inserted r | updated r => some r.revoked.id
  | _ => none

/-- The running UPDATE. -/
def update : Phase → Option RevokeAll
  | revoking _ u | bulk u => some u
  | _ => none

/-- The request holds the lock of row `id`, in its transaction or in its UPDATE. -/
def holds (p : Phase) (id : Uuid) : Bool :=
  p.rowLock = some id || p.update.any fun u => u.marked.contains id

/-- Pool connections the request has taken. -/
def connections : Phase → ℕ
  | begun | locked _ | reuse _ | revokedAll _ | rotating _ | inserted _ | updated _ | bulk _ => 1
  | revoking _ _ => 2
  | _ => 0

/-- The refresh has committed its rotation. -/
def rotated : Phase → Bool
  | committed _ | userFound _ | membershipsFound _ | answered _ => true
  | _ => false

/-- The request has stored the session it generated. -/
def stored (p : Phase) : Bool := p.rotated || p = loggedIn

/-- The request has ended. -/
def finished : Phase → Bool
  | answered _ | failed _ | loggedIn | bulkDone => true
  | _ => false

end Phase

/-- What a step changes in the committed table. -/
inductive Effect where
  | none
  | save (session : SessionEntity)
  /-- The commit of a rotation: the successor's save, then the predecessor's. -/
  | rotate (revoked created : SessionEntity)
  /-- The end of an UPDATE. -/
  | revokeAll (ids : List Uuid) (now : Date)
  deriving DecidableEq

/-- The assignments of `revokeAllByUserId` on the rows with the given ids. -/
def markRevoked (ids : List Uuid) (now : Date) (e : SessionEntity) : SessionEntity :=
  if e.id ∈ ids then e.setRevokedAt now else e

def Effect.apply : Effect → List SessionEntity → List SessionEntity
  | none, sessions => sessions
  | save e, sessions => (saveSession sessions e).getD sessions
  | rotate revoked created, sessions => (saveRotated sessions created revoked).getD sessions
  | revokeAll ids now, sessions => sessions.map (markRevoked ids now)

/-- What the rest of the system shows to a request. -/
structure Env where
  sessions : List SessionEntity
  /-- Some transaction or UPDATE holds the lock of the row. -/
  locked : Uuid → Bool
  /-- The pool has a free connection. -/
  connection : Bool
  scanOrder : Uuid → ℕ

/-- The candidates of `revokeAllByUserId` in the current snapshot, in scan order. -/
def Env.candidates (env : Env) (userId : Uuid) : List Uuid :=
  ((env.sessions.filter fun e => e.userId = userId && e.revokedAt.isNone).map (·.id)).insertionSort
    fun a b => env.scanOrder a ≤ env.scanOrder b

def Env.startRevokeAll (env : Env) (userId : Uuid) (now : Date) : RevokeAll :=
  ⟨now, env.candidates userId, []⟩

/-- The UPDATE's next row, once its lock is free: marked when it is still un-revoked. -/
def Env.visit (env : Env) (u : RevokeAll) : Option RevokeAll :=
  match u.pending with
  | [] => none
  | id :: rest =>
    if env.locked id then none
    else if env.sessions.any fun e => e.id = id && e.revokedAt.isNone then
      some ⟨u.startedAt, rest, id :: u.marked⟩
    else some ⟨u.startedAt, rest, u.marked⟩

inductive Event where
  | begin
  | select
  | callback (now : Date)
  | insertSuccessor
  | updatePredecessor
  | commit
  | startRevokeAll (now : Date)
  | visit
  | endRevokeAll
  | rollback
  | findUser (answer : Lookup)
  | findMemberships (ok : Bool)
  | sign (ok : Bool)
  | saveSession (now : Date)
  /-- A statement fails or the connection is lost: everything uncommitted is rolled back. -/
  | abort
  deriving DecidableEq

/-- One step of one request. -/
def advance (env : Env) (new : NewSession) : Request → Event → Phase → Option (Phase × Effect)
  | .refresh _, .begin, .requested =>
    if env.connection then some (.begun, .none) else none
  | .refresh r, .select, .begun =>
    match findByRefreshTokenHash r.presentedHash env.sessions with
    | none => some (.failed .invalidRefreshToken, .none)
    | some e => if env.locked e.id then none else some (.locked e.toAggregate, .none)
  | .refresh _, .callback now, .locked current =>
    match rotateCallback new now current with
    | .reuse current => some (.reuse current, .none)
    | .expired => some (.failed .invalidRefreshToken, .none)
    | .rotate result => some (.rotating result, .none)
  | .refresh _, .insertSuccessor, .rotating result =>
    if (AccountApi.saveSession env.sessions result.created.toEntity).isSome then
      some (.inserted result, .none)
    else some (.failed .failure, .none)
  | .refresh _, .updatePredecessor, .inserted result =>
    -- the self-referencing foreign key: the successor's row must exist
    if result.revoked.replacedBySessionId = some result.created.id ||
        env.sessions.any fun e => result.revoked.replacedBySessionId = some e.id then
      some (.updated result, .none)
    else some (.failed .failure, .none)
  | .refresh _, .commit, .updated result =>
    some (.committed result.created, .rotate result.revoked.toEntity result.created.toEntity)
  | .refresh _, .startRevokeAll now, .reuse current =>
    if env.connection then
      some (.revoking current (env.startRevokeAll current.userId now), .none)
    else none
  | .refresh _, .visit, .revoking current u =>
    (env.visit u).map fun u' => (.revoking current u', .none)
  | .refresh _, .endRevokeAll, .revoking current u =>
    if u.pending = [] then some (.revokedAll current, .revokeAll u.marked u.startedAt) else none
  | .refresh _, .rollback, .revokedAll _ => some (.failed .refreshTokenReuseDetected, .none)
  | .refresh _, .findUser answer, .committed created =>
    if env.connection then
      match answer with
      | .found => some (.userFound created, .none)
      | .null => some (.answered (.error .invalidRefreshToken), .none)
      | .throws => some (.answered (.error .failure), .none)
    else none
  | .refresh _, .findMemberships ok, .userFound created =>
    if env.connection then
      some (if ok then .membershipsFound created else .answered (.error .failure), .none)
    else none
  | .refresh _, .sign ok, .membershipsFound _ =>
    some (.answered (if ok then .ok () else .error .failure), .none)
  | .refresh _, .abort, p =>
    if p.connections = 0 then none else some (.failed .failure, .none)
  | .login l, .saveSession now, .requested =>
    if env.connection then
      if (AccountApi.saveSession env.sessions (new.build l.userId now).toEntity).isSome then
        some (.loggedIn, .save (new.build l.userId now).toEntity)
      else some (.failed .failure, .none)
    else none
  | .revokeAll userId, .startRevokeAll now, .requested =>
    if env.connection then some (.bulk (env.startRevokeAll userId now), .none) else none
  | .revokeAll _, .visit, .bulk u => (env.visit u).map fun u' => (.bulk u', .none)
  | .revokeAll _, .endRevokeAll, .bulk u =>
    if u.pending = [] then some (.bulkDone, .revokeAll u.marked u.startedAt) else none
  | .revokeAll _, .abort, .bulk _ => some (.failed .failure, .none)
  | _, _, _ => none

/-! ## The system -/

/-- The requests and what they generate. Ids and hashes are random: no two requests
generate the same. -/
structure System (ι : Type) where
  requests : ι → Request
  newId : ι ↪ Uuid
  newHash : ι ↪ TokenHash
  scanOrder : Uuid → ℕ
  /-- The size of the connection pool, `none` for an unlimited one. -/
  capacity : Option ℕ

structure State (ι : Type) where
  sessions : List SessionEntity
  phase : ι → Phase

namespace System

variable {ι : Type}

def expiresAt (S : System ι) (i : ι) : Date :=
  match S.requests i with
  | .refresh r => r.expiresAt
  | .login l => l.expiresAt
  | .revokeAll _ => .invalid

def newSession (S : System ι) (i : ι) : NewSession := ⟨S.newId i, S.newHash i, S.expiresAt i⟩

/-- No request has begun. -/
def start (_ : System ι) (sessions : List SessionEntity) : State ι := ⟨sessions, fun _ => .requested⟩

variable [Fintype ι] [DecidableEq ι]

def used (s : State ι) : ℕ := ∑ i, (s.phase i).connections

def env (S : System ι) (s : State ι) : Env where
  sessions := s.sessions
  locked id := decide (∃ i, (s.phase i).holds id = true)
  connection := match S.capacity with
    | none => true
    | some n => decide (used s < n)
  scanOrder := S.scanOrder

def step (S : System ι) (s : State ι) (a : ι × Event) : Option (State ι) :=
  (advance (S.env s) (S.newSession a.1) (S.requests a.1) a.2 (s.phase a.1)).map fun q =>
    ⟨q.2.apply s.sessions, Function.update s.phase a.1 q.1⟩

end System

end AccountApi

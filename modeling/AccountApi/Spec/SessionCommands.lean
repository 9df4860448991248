import AccountApi.Spec.Session
import AccountApi.Lib.Run

/-!
# Login and refresh, run on their own

`LoginUserCommandHandler.execute` and `RefreshSessionCommandHandler.execute` from
the first statement to the last, with nothing else touching the `session` table.
What the other contexts, the signature and the statements answer is a parameter of
the call (`LoginPorts`, `RefreshPorts`).

`Command.step` runs one command; the ids and hashes it generates are random, so a
step with a used one does not happen.
-/

namespace AccountApi

/-- A handler over the committed `session` table. -/
abbrev Handler := EStateM AuthError (List SessionEntity)

namespace Handler

/-- A call that succeeds or throws. -/
def call (ok : Bool) : Handler Unit := if ok then pure () else throw .failure

/-- The user a lookup finds, when `null` is answered with `error`. -/
def lookup (answer : Lookup) (error : AuthError) : Handler Unit :=
  match answer with
  | .found => pure ()
  | .null => throw error
  | .throws => throw .failure

/-- The table a call leaves. -/
def table {α : Type} : EStateM.Result AuthError (List SessionEntity) α → List SessionEntity
  | .ok _ sessions | .error _ sessions => sessions

@[simp] theorem table_ok {α : Type} (a : α) (s : List SessionEntity) : table (.ok a s) = s := rfl
@[simp] theorem table_error {α : Type} (e : AuthError) (s : List SessionEntity) :
    table (.error e s : EStateM.Result _ _ α) = s := rfl

end Handler

open Handler

structure LoginPorts where
  userId : Uuid
  now : Date
  generated : NewSession
  verifyCredentials : Bool
  findByEmail : Lookup
  findMemberships : Bool
  setPlatformAdmin : Bool
  sign : Bool
  insert : Bool
  deriving DecidableEq, Repr

/-- `sessionWriteRepository.save`. -/
def save (ok : Bool) (session : SessionAggregate) : Handler Unit := do
  call ok
  match saveSession (← get) session.toEntity with
  | some sessions => set sessions
  | none => throw .failure

def loginUser (p : LoginPorts) : Handler Unit := do
  unless p.verifyCredentials do throw .invalidCredentials
  lookup p.findByEmail .invalidCredentials
  call p.findMemberships
  call p.setPlatformAdmin
  call p.sign
  save p.insert (p.generated.build p.userId p.now)

structure RefreshPorts where
  now : Date
  generated : NewSession
  revokeAllByUserId : Bool
  insertSuccessor : Bool
  updatePredecessor : Bool
  findById : Lookup
  findMemberships : Bool
  sign : Bool
  deriving DecidableEq, Repr

/-- `UPDATE "session" SET … WHERE user_id = :userId AND revoked_at IS NULL`. -/
def revokedAll (userId : Uuid) (now : Date) (sessions : List SessionEntity) : List SessionEntity :=
  sessions.map fun e => if e.userId = userId && e.revokedAt.isNone then e.setRevokedAt now else e

def revokeAllByUserId (ok : Bool) (userId : Uuid) (now : Date) : Handler Unit := do
  call ok
  modify (revokedAll userId now)

/-- The saves of a rotation and its commit: when one fails neither is kept. -/
def saveRotation (p : RefreshPorts) (result : RotateResult) : Handler Unit := do
  call (p.insertSuccessor && p.updatePredecessor)
  match saveRotated (← get) result.created.toEntity result.revoked.toEntity with
  | some sessions => set sessions
  | none => throw .failure

def rotate (p : RefreshPorts) (refreshTokenHash : TokenHash)
    (callback : SessionAggregate → Handler RotateResult) : Handler (Option RotateResult) := do
  match findByRefreshTokenHash refreshTokenHash (← get) with
  | none => return none
  | some entity =>
    let result ← callback entity.toAggregate
    saveRotation p result
    return some result

/-- The callback, its decision carried out. -/
def onLocked (p : RefreshPorts) (current : SessionAggregate) : Handler RotateResult :=
  match rotateCallback p.generated p.now current with
  | .reuse current => do
    revokeAllByUserId p.revokeAllByUserId current.userId p.now
    throw .refreshTokenReuseDetected
  | .expired => throw .invalidRefreshToken
  | .rotate result => pure result

def refreshSession (p : RefreshPorts) (presentedHash : TokenHash) : Handler Unit := do
  match ← rotate p presentedHash (onLocked p) with
  | none => throw .invalidRefreshToken
  | some _ =>
    lookup p.findById .invalidRefreshToken
    call p.findMemberships
    call p.sign

/-! ## Sequential runs -/

inductive Command where
  | login (p : LoginPorts)
  | refresh (p : RefreshPorts) (presentedHash : TokenHash)
  deriving DecidableEq, Repr

namespace Command

def generated : Command → NewSession
  | login p => p.generated
  | refresh p _ => p.generated

def execute : Command → Handler Unit
  | login p => loginUser p
  | refresh p hash => refreshSession p hash

/-- No row has the id or the hash. -/
def fresh (sessions : List SessionEntity) (n : NewSession) : Bool :=
  sessions.all fun e => e.id ≠ n.id && e.refreshTokenHash ≠ n.refreshTokenHash

def step (sessions : List SessionEntity) (c : Command) : Option (List SessionEntity) :=
  if fresh sessions c.generated then some (table (c.execute.run sessions)) else none

end Command

end AccountApi

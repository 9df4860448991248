import AccountApi.Spec.Identity
import AccountApi.Spec.Rotation

/-!
# Logins from the credentials to the session

`Spec.Identity` takes a login up to its signed token, `Spec.Rotation` stores its session.
Here the two run together: a session is stored by a login whose token is signed, for the
user of the token, and the login returns after that.
-/

namespace AccountApi

/-- The requests on sessions (`ι`), the registrations (`ρ`), and the logins and refreshes (`κ`). -/
structure Logins (ι ρ κ : Type) where
  sessions : System ι
  identity : Identity ρ κ
  /-- The login that stores the session of a `Request.login`. -/
  loginOf : ι → κ

structure LoginsState (ι ρ κ : Type) where
  sessions : State ι
  identity : IdentityState ρ κ

inductive LoginsEvent (ι ρ κ : Type) where
  | session (i : ι) (event : Event)
  | identity (event : IdentityEvent ρ κ)
  deriving DecidableEq

/-- The token of the user is signed, the session is next. -/
def TokenPhase.signedFor (userId : Uuid) : TokenPhase → Bool
  | signed _ c => c.sub = userId
  | _ => false

namespace Logins

variable {ι ρ κ : Type} (P : Logins ι ρ κ)

/-- No request has begun, and there are no sessions. -/
def start (accounts : List KeycloakAccount) (users : List UserEntity) : LoginsState ι ρ κ :=
  ⟨P.sessions.start [], Identity.start accounts users⟩

/-- A login saves its session when its token is signed. -/
def savesAfterSigning (s : LoginsState ι ρ κ) (i : ι) : Bool :=
  match P.sessions.requests i with
  | .login l => (s.identity.tokens (P.loginOf i)).signedFor l.userId
  | _ => true

variable [Fintype ι] [DecidableEq ι] [DecidableEq ρ] [DecidableEq κ]

/-- A login returns when its session is saved. -/
def returnsAfterSaving (s : LoginsState ι ρ κ) : IdentityEvent ρ κ → Bool
  | .token j _ _ =>
    match s.identity.tokens j with
    | .signed _ _ => decide (∃ i, P.loginOf i = j ∧ s.sessions.phase i = .loggedIn)
    | _ => true
  | _ => true

def step (s : LoginsState ι ρ κ) : LoginsEvent ι ρ κ → Option (LoginsState ι ρ κ)
  | .session i event =>
    if P.savesAfterSigning s i then
      (P.sessions.step s.sessions (i, event)).map fun sessions => { s with sessions }
    else none
  | .identity event =>
    if P.returnsAfterSaving s event then
      (P.identity.step s.identity event).map fun identity => { s with identity }
    else none

end Logins

end AccountApi

import AccountApi.Lib.Run
import AccountApi.Lib.Chain
import AccountApi.Lib.Table
import AccountApi.Lib.JsString
import AccountApi.Lib.Claim
import AccountApi.Spec.Session
import AccountApi.Spec.Rotation
import AccountApi.Spec.SessionCommands
import AccountApi.Spec.Registration
import AccountApi.Proof.Moves
import AccountApi.Proof.SessionInv
import AccountApi.Proof.SingleUse
import AccountApi.Proof.ChainInvalidation
import AccountApi.Proof.Pool
import AccountApi.Proof.SessionCommands
import AccountApi.Proof.StaleToken
import AccountApi.Proof.RefreshFailure
import AccountApi.Proof.Solo
import AccountApi.Proof.Registration
import AccountApi.Spec.Tenancy
import AccountApi.Proof.TenancyMoves
import AccountApi.Proof.TenantOwners
import AccountApi.Proof.TenantDeletion
import AccountApi.Proof.TenantUpdates
import AccountApi.Spec.TenantAccess
import AccountApi.Proof.TenantAccess
import AccountApi.Proof.StaleClaims
import AccountApi.Proof.Deadlock
import AccountApi.Lib.Aggregate
import AccountApi.Spec.Aggregates
import AccountApi.Proof.Aggregates
import AccountApi.Spec.Database
import AccountApi.Proof.EventStream
import AccountApi.Spec.Builders
import AccountApi.Proof.Builders
import AccountApi.Spec.Config
import AccountApi.Proof.SessionExpiry
import AccountApi.Spec.Identity
import AccountApi.Proof.Identity
import AccountApi.Proof.PlatformAdmin
import AccountApi.Proof.VerifiedIdentity
import AccountApi.Spec.Logins
import AccountApi.Proof.SessionChains
import AccountApi.Spec.Conflicts
import AccountApi.Spec.Migrations
import AccountApi.Spec.TopicMap
import AccountApi.Proof.AppSlugs
import AccountApi.Proof.SlugMoves
import AccountApi.Proof.SlugClaims
import AccountApi.Proof.Conflicts
import AccountApi.Proof.Migrations
import AccountApi.Proof.TopicMap
import AccountApi.Lib.Simulation
import AccountApi.Lib.Dispatch
import AccountApi.Lib.Owned
import AccountApi.Spec.Observability
import AccountApi.Proof.Observability
import AccountApi.Spec.SigningKeys
import AccountApi.Spec.AccessTokens
import AccountApi.Proof.Deployments
import AccountApi.Proof.AccessTokens
import AccountApi.Lib.Base64
import AccountApi.Spec.Keycloak
import AccountApi.Proof.KeycloakCalls
import AccountApi.Proof.Keycloak
import AccountApi.Proof.Orphans
import AccountApi.Spec.Responses
import AccountApi.Proof.Responses
import AccountApi.Lib.OneTime
import AccountApi.Proof.Linearization
import AccountApi.Proof.Alarms
import AccountApi.Proof.Termination
import AccountApi.Proof.Acceptance
import AccountApi.Proof.TenantIsolation
import AccountApi.Spec.Entities
import AccountApi.Proof.EntityColumns
import AccountApi.Proof.Entities
import AccountApi.Proof.SessionTables

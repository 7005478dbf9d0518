import BearerToken.Json.Value
import BearerToken.Record
import BearerToken.Rejection

/-!
# Log events

The events that the library reports. An event names token identifiers, never token texts or secrets.
Its name, level and fields are the contract with those who read the log.
-/

namespace BearerToken

/-- The severities of log events. -/
inductive Level where
  | debug
  | info
  | warning
  | error
  | critical
  deriving Repr, DecidableEq, Inhabited

namespace Level

def name : Level → String
  | .debug => "debug"
  | .info => "info"
  | .warning => "warning"
  | .error => "error"
  | .critical => "critical"

def number : Level → Nat
  | .debug => 10
  | .info => 20
  | .warning => 30
  | .error => 40
  | .critical => 50

end Level

/-- What the library reports. -/
inductive Event where
  | created (id : TokenId) (kind : Kind) (label : Text) (principal : Option PrincipalKind)
  | rejected (cause : Rejection)
  | notFound (id : TokenId) (kind : Kind)
  | touched (id : TokenId)
  | refreshed (id : TokenId) (source : Kind)
  /-- The token that a refresh gave is already past its lifetime. -/
  | refreshedExpired (id : TokenId) (expiresAt : Option Int)
  /-- A record was read, and the time of its access could not be written. -/
  | accessUpdateFailed (id : TokenId) (error : Text)
  | writeFailed (id : TokenId) (error : Text)
  | readFailed (id : TokenId) (error : Text)
  | unknownPrincipal (name : Text)
  | defaultSecretInUse
  | policyConfigured (kind : Kind) (expiresAfterSeconds : Int)
  | storeConfigured (store : String) (retentionSeconds : Int) (version : SignatureVersion)

namespace Event

open Json (Value)

def name : Event → String
  | .created .. => "token_created"
  | .rejected .. => "token_rejected"
  | .notFound .. => "token_not_found"
  | .touched .. => "token_touched"
  | .refreshed .. => "token_refreshed"
  | .refreshedExpired .. => "token_refreshed_expired"
  | .accessUpdateFailed .. => "token_access_update_failed"
  | .writeFailed .. => "token_store_write_failed"
  | .readFailed .. => "token_store_read_failed"
  | .unknownPrincipal .. => "unknown_principal_type"
  | .defaultSecretInUse => "default_token_secret_in_use"
  | .policyConfigured .. => "token_policy_configured"
  | .storeConfigured .. => "token_store_configured"

def level : Event → Level
  | .touched .. => .debug
  | .created .. | .rejected .. | .notFound .. | .refreshed .. => .info
  | .policyConfigured .. | .storeConfigured .. => .info
  | .refreshedExpired .. | .accessUpdateFailed .. => .warning
  | .unknownPrincipal .. | .defaultSecretInUse => .warning
  | .writeFailed .. | .readFailed .. => .error

def idField (id : TokenId) : String × Value := ("token_id", .string id.canonical)

def fields : Event → List (String × Value)
  | .created id kind label principal =>
    [idField id, ("kind", .string kind.label), ("label", .text label),
     ("principal_type", .ofOption (.string ·.name) principal)]
  | .rejected cause => [("reason", .string cause.reason), ("detail", .string cause.message)]
  | .notFound id kind => [idField id, ("kind", .string kind.label)]
  | .touched id => [idField id]
  | .refreshed id source => [idField id, ("from_kind", .string source.label)]
  | .refreshedExpired id expiresAt => [idField id, ("expires_at", .ofOption .int expiresAt)]
  | .accessUpdateFailed id error => [idField id, ("error", .text error)]
  | .writeFailed id error => [idField id, ("error", .text error)]
  | .readFailed id error => [idField id, ("error", .text error)]
  | .unknownPrincipal name => [("principal_type", .text name)]
  | .defaultSecretInUse => []
  | .policyConfigured kind seconds =>
    [("kind", .string kind.label), ("expires_after_seconds", .int seconds)]
  | .storeConfigured store seconds version =>
    [("store", .string store), ("retention_seconds", .int seconds),
     ("signature_version", .int version.number)]

end Event

end BearerToken

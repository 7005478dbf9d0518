import BearerToken.Service
import BearerToken.Settings.Environment
import BearerToken.Store.Memory
import BearerToken.Store.Remote

/-!
# From settings to a service

Settings fix a verifier and where records are kept: in the store that the host gives, else on the
server if there is an address, else in memory. What has been put together is reported, a default
secret first of all.
-/

namespace BearerToken

/-- Where records are kept. -/
inductive Backend where
  | memory
  | remote (url namespaceName : Text)
  deriving Repr, DecidableEq

namespace Backend

/-- The name under which the log knows a backend. -/
def name : Backend → String
  | .memory => "InMemoryTokenStore"
  | .remote _ _ => "RedisTokenStore"

/-- The key of a record, where the backend has keys. -/
def key? (id : TokenId) : Backend → Option Text
  | .memory => none
  | .remote _ namespaceName => some (Remote.key namespaceName id)

/-- The call that connects to the server. -/
def connection? : Backend → Option Call
  | .memory => none
  | .remote url _ => some (.connect url)

end Backend

/-- A verifier with its backend, and whether the secret is the default one. -/
structure Assembly extends Verifier where
  backend : Backend
  defaultSecret : Bool

namespace Settings

/-- The backend that the settings ask for. -/
def backend (s : Settings) : Backend :=
  match s.serverUrl with
  | none => .memory
  | some url => if url.isEmpty then .memory else .remote url s.namespaceName

/-- Puts a service together; `given` is the backend of a store that the host gives. -/
def assemble (s : Settings) (given : Option Backend) : Except CodecError Assembly := do
  let codec ← Codec.make s.secret s.version s.acceptLegacy
  return {
    codec
    policy := s.policy
    backend := given.getD s.backend
    defaultSecret := s.usesDefaultSecret }

end Settings

namespace Assembly

/-- What is reported of an assembly. -/
def events (a : Assembly) : List Event :=
  (if a.defaultSecret then [.defaultSecretInUse] else []) ++
    (Kind.all.map fun k => .policyConfigured k (a.policy.ttlFor k / 1000)) ++
    [.storeConfigured a.backend.name a.policy.retentionSeconds a.codec.version]

/-- The service on a store. -/
def service (a : Assembly) (store : Store σ) : Service σ := ⟨a.toVerifier, store⟩

end Assembly

end BearerToken

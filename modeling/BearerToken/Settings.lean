import BearerToken.Policy
import BearerToken.Store.Remote
import BearerToken.Table

/-!
# Settings

What a host program decides once, before it serves requests: the secret and the signature format,
the lifetimes, the store, and the level of the log. A lifetime or the retention can be left open,
and one that is not positive counts as left open.
-/

namespace BearerToken

/-- The decisions of a host program. -/
structure Settings where
  secret : Text
  /-- The kinds whose lifetime the host names; naming a kind without one leaves its default. -/
  ttlOverrides : Table Kind (Option Int)
  retentionMs : Option Int
  version : SignatureVersion
  acceptLegacy : Bool
  /-- Where the server of hashes is; records are kept in memory without it. -/
  serverUrl : Option Text
  namespaceName : Text
  logLevel : Text

namespace Settings

def defaultSecret : Text := "super secret token value"

def default : Settings where
  secret := defaultSecret
  ttlOverrides := .empty
  retentionMs := some Kind.longAgeMs
  version := .plain
  acceptLegacy := true
  serverUrl := none
  namespaceName := Remote.defaultNamespace
  logLevel := "info"

instance : Inhabited Settings := ⟨default⟩

def usesDefaultSecret (s : Settings) : Bool := s.secret = defaultSecret

/-- The lifetime that the settings name for a kind. -/
def ttlOverride? (s : Settings) (k : Kind) : Option Int := (s.ttlOverrides.get? k).join

def policy (s : Settings) : Policy := .withOverrides s.ttlOverride? s.retentionMs

end Settings

end BearerToken

import BearerToken.Policy
import BearerToken.Store

/-!
# The token service

What can be done with tokens: create one, look its record up, touch it, exchange it for an access
token, and inspect it. Every way in which a token can be unusable becomes the absence of a result,
and only the log tells which it was. A failing store is always told apart from an unusable token.
-/

namespace BearerToken

/-- Decides whether a presented token is honoured. It needs no store. -/
structure Verifier where
  codec : Codec
  policy : Policy

namespace Verifier

variable {σ : Type}

/-- Verifies the signature, then both limits. -/
def verdict (v : Verifier) (nowMs : Int) (token : Presented) : Except Rejection Decoded := do
  let decoded ← v.codec.decodePresented token
  v.policy.check decoded nowMs
  return decoded

/-- The verdict as an action, which reports a rejection. -/
def resolve (v : Verifier) (nowMs : Int) (token : Presented) : Action σ Decoded :=
  match v.verdict nowMs token with
  | .ok decoded => pure decoded
  | .error cause => do
    .emit (.rejected cause)
    .fail (.rejected cause)

end Verifier

/-- A verifier with a store. -/
structure Service (σ : Type) extends Verifier where
  store : Store σ

namespace Service

variable {σ : Type}

/-- What a new token is bound to, with the state that its record starts with. -/
structure Grant where
  label : Option Text := none
  principal : Option Principal := none
  state : Json.Value := Record.startingState none

/-- Issues a token: writes its record, reports it, and gives its text. -/
def create (s : Service σ) (nowMs : Int) (entropy : Entropy) (kind : Kind) (grant : Grant) :
    Action σ String := do
  let id := TokenId.generate nowMs entropy
  let record := Record.issued id grant.label grant.principal grant.state
  s.store.put nowMs id record s.policy.retentionSeconds
  .emit (.created id kind record.label (grant.principal.map (·.kind)))
  .ofExcept .expiryOverflow (s.codec.encode kind id (s.policy.ttlFor kind))

/-- Issues an access token that is bound to a principal. -/
def createForPrincipal (s : Service σ) (nowMs : Int) (entropy : Entropy) (principal : Principal)
    (state : Json.Value) : Action σ String :=
  s.create nowMs entropy .access { principal := some principal, state := state }

/-- The record behind a token, which the log reports as missing if there is none. -/
def fetch (s : Service σ) (nowMs : Int) (token : Decoded) : Action σ Record := do
  match ← s.store.get nowMs token.id with
  | some record => return record
  | none =>
    .emit (.notFound token.id token.kind)
    .fail (.notFound token.id)

/-- Writes the time of access as far as the store allows it: the record has been read, so a store
error is reported and no more. -/
def noteAccess (s : Service σ) (nowMs : Int) (id : TokenId) (accessedMs : Int) : Action σ Unit :=
  (s.store.setAccessed nowMs id accessedMs s.policy.retentionSeconds).recover fun
    | .store cause => .emit (.accessUpdateFailed id cause.message)
    | failure => .fail failure

/-- The record behind a token, with its access noted. -/
def lookupStrict (s : Service σ) (nowMs : Int) (token : Presented) : Action σ Record := do
  let decoded ← s.resolve nowMs token
  let record ← s.fetch nowMs decoded
  let record := record.markAccessed nowMs
  s.noteAccess nowMs decoded.id record.accessed
  return record

/-- Notes an access without reading the record. -/
def touchStrict (s : Service σ) (nowMs : Int) (token : Presented) : Action σ Unit := do
  let decoded ← s.resolve nowMs token
  s.store.setAccessed nowMs decoded.id nowMs s.policy.retentionSeconds
  .emit (.touched decoded.id)

/-- An access token for the same identifier. The record is written again, which restarts its
retention; the identifier keeps its creation time, so the new token may be past its lifetime
already. -/
def refreshStrict (s : Service σ) (nowMs : Int) (token : Presented) : Action σ String := do
  let decoded ← s.resolve nowMs token
  let record ← s.fetch nowMs decoded
  s.store.put nowMs decoded.id (record.markAccessed nowMs) s.policy.retentionSeconds
  .emit (.refreshed decoded.id decoded.kind)
  let expiresAt := s.policy.embeddedExpiry .access decoded.id
  if !s.policy.isValid .access decoded.id expiresAt nowMs then
    .emit (.refreshedExpired decoded.id expiresAt)
  .ofExcept .expiryOverflow (s.codec.encode .access decoded.id (s.policy.ttlFor .access))

/-- The result, unless the token is unusable. -/
def ifUsable (a : Action σ α) : Action σ (Option α) :=
  (some <$> a).recover fun
    | .rejected _ | .notFound _ => return none
    | failure => .fail failure

def lookup (s : Service σ) (nowMs : Int) (token : Presented) : Action σ (Option Record) :=
  ifUsable (s.lookupStrict nowMs token)

/-- Whether the token was honoured; its record may be gone all the same. -/
def touch (s : Service σ) (nowMs : Int) (token : Presented) : Action σ Bool :=
  ((fun _ => true) <$> s.touchStrict nowMs token).recover fun
    | .rejected _ => return false
    | failure => .fail failure

def refresh (s : Service σ) (nowMs : Int) (token : Presented) : Action σ (Option String) :=
  ifUsable (s.refreshStrict nowMs token)

/-- What the token says, with the reason if it is not honoured. The store is left alone. -/
def inspect (s : Service σ) (nowMs : Int) (token : Presented) : Action σ Decoded :=
  s.resolve nowMs token

end Service

end BearerToken

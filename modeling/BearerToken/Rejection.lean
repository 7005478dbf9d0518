import BearerToken.Kind
import BearerToken.TokenId

/-!
# Rejections

Why a presented token is not honoured. Those who hold tokens never see which of these it was; the
distinctions are for operators and for the log.
-/

namespace BearerToken

/-- Why the text behind the kind's tag is no payload. -/
inductive Malformation where
  | notBase64url
  | notCanonical
  | badLength (length : Nat) (kind : Kind)
  | badId (cause : TokenIdError)
  deriving Repr, DecidableEq

/-- Which of the two lifetimes has ended. -/
inductive Limit where
  /-- The lifetime of the kind, from the creation time in the identifier. -/
  | ttl
  /-- The expiry in the token text. -/
  | embedded
  deriving Repr, DecidableEq

/-- Why a presented token is not honoured. -/
inductive Rejection where
  /-- What was presented is no text. -/
  | notText
  /-- The text starts with the tag of no kind. -/
  | unknownKind
  | malformed (cause : Malformation)
  /-- Tokens of the first signature format are refused. -/
  | legacyRefused
  | badSignature
  | expired (kind : Kind) (limit : Limit)
  deriving Repr, DecidableEq

namespace Malformation

def message : Malformation → String
  | .notBase64url => "Token payload is not base64url"
  | .notCanonical => "Token payload is not canonical base64url"
  | .badLength length kind =>
    "Unexpected payload length " ++ Numeral.write length ++ " for " ++ kind.label ++ " token"
  | .badId cause => cause.message

end Malformation

namespace Rejection

/-- The class of a rejection, as the log names it. -/
def reason : Rejection → String
  | .notText | .unknownKind => "unknown_kind"
  | .malformed _ => "malformed"
  | .legacyRefused | .badSignature => "invalid_signature"
  | .expired _ _ => "expired"

def message : Rejection → String
  | .notText => "Token is not a string"
  | .unknownKind => "Unrecognized token prefix"
  | .malformed cause => cause.message
  | .legacyRefused => "Legacy token signatures are no longer accepted"
  | .badSignature => "Token signature mismatch"
  | .expired kind .ttl => kind.label ++ " token exceeded its TTL"
  | .expired kind .embedded => kind.label ++ " token passed its embedded expiry"

end Rejection

end BearerToken

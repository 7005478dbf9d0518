import BearerToken.Base64Url
import BearerToken.Digest
import BearerToken.Rejection
import BearerToken.Text.Utf8

/-!
# Token texts

A token text is the tag of its kind followed by the strict base64url form of a payload. The payload
holds the identifier, the expiry if the kind embeds one, and a signature of twenty bytes. In the
second format a byte with the value two stands in front, so the length tells the formats apart and
both are read side by side. A codec writes one of them, and can refuse to read the first.

The signed message starts with the kind's tag and the canonical identifier and ends with the expiry,
for which a fixed sentinel stands where a kind embeds none. In the first format the secret stands
inside the message; in the second it is the key.
-/

namespace BearerToken

/-- What a verified token text says. Its lifetime is not yet checked. -/
structure Decoded where
  kind : Kind
  id : TokenId
  expiresAt : Option Int
  version : SignatureVersion
  deriving DecidableEq

def Decoded.created (d : Decoded) : Int := d.id.timestampMs

/-- What is presented as a token: a text, or something that is no text. -/
inductive Presented where
  | text (wire : Text)
  | other
  deriving Repr, DecidableEq

instance : Coe Text Presented := ⟨.text⟩

/-- Why no codec can be built. -/
inductive CodecError where
  | emptySecret
  /-- A secret with surrogates has no form in bytes. -/
  | unencodableSecret (cause : EncodeFault)
  | unknownVersion (number : Int)
  deriving Repr, DecidableEq

def CodecError.message : CodecError → String
  | .emptySecret => "Token secret must not be empty"
  | .unencodableSecret cause => cause.message
  | .unknownVersion number => SignatureVersion.unknownNumber number

/-- An expiry that does not fit 64 bits. -/
structure ExpiryOverflow where
  expires : Int
  deriving Repr, DecidableEq

def ExpiryOverflow.message (_ : ExpiryOverflow) : String := "int too large to convert"

/-- Writes and verifies token texts under one secret. -/
structure Codec where
  secret : String
  secret_ne : secret ≠ ""
  version : SignatureVersion
  acceptLegacy : Bool
  digests : Digests

namespace Codec

/-- A secret has to be a string, and not an empty one. -/
def readSecret (secret : Text) : Except CodecError { s : String // s ≠ "" } :=
  match secret.toString? with
  | some s => if h : s = "" then .error .emptySecret else .ok ⟨s, h⟩
  | none => .error (.unencodableSecret (.of secret))

/-- A codec with the standard digests. -/
def make (secret : Text) (version : SignatureVersion) (acceptLegacy : Bool) :
    Except CodecError Codec := do
  let ⟨secret, secret_ne⟩ ← readSecret secret
  return ⟨secret, secret_ne, version, acceptLegacy, .standard⟩

/-- A codec whose signature format is given by its number. The secret is checked first. -/
def ofNumber (secret : Text) (number : Int) (acceptLegacy : Bool) : Except CodecError Codec :=
  match SignatureVersion.ofNumber? number with
  | some version => make secret version acceptLegacy
  | none => do
    let _ ← readSecret secret
    .error (.unknownVersion number)

/-- The expiry that is signed for a kind that embeds none. -/
def sentinel : Int := 2 ^ 63 - 1

/-- The text that is signed. -/
def messageText (c : Codec) (v : SignatureVersion) (kind : Kind) (id : TokenId) (expires : Int) :
    String :=
  let inner := match v with
    | .plain => c.secret
    | .keyed => ""
  kind.tag ++ id.canonical ++ inner ++ Numeral.write expires

/-- The bytes that are signed. -/
def message (c : Codec) (v : SignatureVersion) (kind : Kind) (id : TokenId) (expires : Int) :
    Bytes :=
  .ofString (c.messageText v kind id expires)

def sign (c : Codec) (v : SignatureVersion) (kind : Kind) (id : TokenId) (expires : Int) : Bytes :=
  match v with
  | .plain => c.digests.plain (c.message v kind id expires)
  | .keyed => c.digests.keyed (.ofString c.secret) (c.message v kind id expires)

@[simp] theorem length_sign (c : Codec) (v : SignatureVersion) (kind : Kind) (id : TokenId)
    (expires : Int) : (c.sign v kind id expires).length = 20 := by
  cases v
  · exact c.digests.length_plain _
  · exact c.digests.length_keyed _ _

/-- The byte that marks the second format. -/
def marker : SignatureVersion → Bytes
  | .plain => []
  | .keyed => [2]

/-- The expiry that is signed, and the bytes that hold it. -/
def expiryParts (kind : Kind) (expires : Int) : Int × Bytes :=
  if kind.embedsExpiry then (expires, .ofInt64 expires) else (sentinel, [])

/-- The payload that says `expires`, if the kind embeds an expiry. -/
def payload (c : Codec) (kind : Kind) (id : TokenId) (expires : Int) : Bytes :=
  let (signed, held) := expiryParts kind expires
  marker c.version ++ id.bytes ++ held ++ c.sign c.version kind id signed

/-- The token text for an identifier. An expiry that is embedded has to fit 64 bits. -/
def encode (c : Codec) (kind : Kind) (id : TokenId) (ttlMs : Int) : Except ExpiryOverflow String :=
  let expires := id.timestampMs + ttlMs
  if kind.embedsExpiry ∧ ¬(-2 ^ 63 ≤ expires ∧ expires < 2 ^ 63) then .error ⟨expires⟩
  else .ok (String.ofList (kind.wireTag ++ Base64Url.encode (c.payload kind id expires)))

/-- The format of a payload, told by its length, and its bytes without the marker. -/
def split (c : Codec) (kind : Kind) (payload : Bytes) :
    Except Rejection (SignatureVersion × Bytes) :=
  if payload.length = kind.legacyLength then
    if c.acceptLegacy then .ok (.plain, payload) else .error .legacyRefused
  else if payload.length = kind.legacyLength + 1 ∧ payload.head? = some 2 then
    .ok (.keyed, payload.drop 1)
  else .error (.malformed (.badLength payload.length kind))

/-- Reads identifier, expiry and signature off the bytes, and compares the signature. -/
def verify (c : Codec) (kind : Kind) (v : SignatureVersion) (body : Bytes) :
    Except Rejection Decoded :=
  match TokenId.ofBytes (body.take 16) with
  | .error cause => .error (.malformed (.badId cause))
  | .ok id =>
    let rest := body.drop 16
    let held := if kind.embedsExpiry then rest.take 8 else []
    let signature := rest.drop held.length
    let expires := if kind.embedsExpiry then Bytes.toInt64 held else sentinel
    if signature = c.sign v kind id expires then
      .ok ⟨kind, id, if kind.embedsExpiry then some expires else none, v⟩
    else .error .badSignature

/-- The bytes that the text behind the kind's tag stands for. -/
def payloadOf (t : Text) : Except Rejection Bytes :=
  match t.chars?.map Base64Url.decode with
  | none | some (.error .notBase64url) => .error (.malformed .notBase64url)
  | some (.error .notCanonical) => .error (.malformed .notCanonical)
  | some (.ok bs) => .ok bs

/-- Reads a token text and verifies its signature. Whether it has expired is not its concern. -/
def decode (c : Codec) (wire : Text) : Except Rejection Decoded :=
  match Kind.ofWire? wire with
  | none => .error .unknownKind
  | some kind => do
    let bs ← payloadOf (wire.drop 4)
    let (v, body) ← c.split kind bs
    c.verify kind v body

def decodePresented (c : Codec) : Presented → Except Rejection Decoded
  | .text wire => c.decode wire
  | .other => .error .notText

end Codec

end BearerToken

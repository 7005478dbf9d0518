import Mathlib
import BearerToken.Codec
import BearerToken.Proofs.Base64Url
import BearerToken.Proofs.TokenId.Bytes

/-!
# The layout of token texts

Reading a token text takes it apart in three steps: the text behind the tag gives a payload, the
payload gives its format and a body, and the body has an identifier, an expiry and a signature at
fixed places. Each step is described here by what it accepts, and the last one also by what its
parts are in a body that is put together again.
-/

namespace BearerToken

namespace Codec

/-- The token text of a payload. -/
def spell (kind : Kind) (payload : Bytes) : Text :=
  Text.ofChars (kind.wireTag ++ Base64Url.encode payload)

theorem spell_injective {kind : Kind} {bs cs : Bytes} (h : spell kind bs = spell kind cs) :
    bs = cs :=
  Base64Url.encode_injective (List.append_cancel_left (Text.ofChars_inj.mp h))

theorem payloadOf_eq_ok_iff {t : Text} {bs : Bytes} :
    payloadOf t = .ok bs ↔ t = Text.ofChars (Base64Url.encode bs) := by
  unfold payloadOf
  constructor
  · intro h
    split at h <;> cases h
    next read =>
      obtain ⟨cs, chars, decoded⟩ := Option.map_eq_some_iff.mp read
      rw [Text.eq_ofChars_of_chars? chars, Base64Url.decode_eq_ok_iff.mp decoded]
  · rintro rfl
    simp [Base64Url.decode_encode]

theorem payloadOf_cases (t : Text) :
    (∃ bs, payloadOf t = .ok bs) ∨ ∃ cause, payloadOf t = .error (.malformed cause) := by
  unfold payloadOf
  split
  · exact .inr ⟨_, rfl⟩
  · exact .inr ⟨_, rfl⟩
  · exact .inr ⟨_, rfl⟩
  · exact .inl ⟨_, rfl⟩

/-- A text is read behind the tag of its kind. -/
theorem decode_append (c : Codec) (kind : Kind) (t : Text) :
    c.decode (Text.ofChars kind.wireTag ++ t) =
      (payloadOf t).bind fun bs => (c.split kind bs).bind fun r => c.verify kind r.1 r.2 := by
  have behind : (Text.ofChars kind.wireTag ++ t).drop 4 = t := by
    rw [List.drop_append_of_le_length (by simp [Text.ofChars])]
    simp [Text.ofChars]
  rw [decode, Kind.ofWire?_append, behind]
  rfl

theorem decode_spell (c : Codec) (kind : Kind) (bs : Bytes) :
    c.decode (spell kind bs) =
      (c.split kind bs).bind fun r => c.verify kind r.1 r.2 := by
  rw [spell, Text.ofChars_append, decode_append, payloadOf_eq_ok_iff.mpr rfl]
  rfl

/-- A text that is accepted is the text of a payload. -/
theorem exists_spell_of_decode {c : Codec} {w : Text} {d : Decoded} (h : c.decode w = .ok d) :
    ∃ kind bs, w = spell kind bs := by
  unfold decode at h
  split at h
  · cases h
  · next kind hkind =>
      rw [Kind.eq_append_of_ofWire? hkind]
      obtain ⟨bs, read⟩ | ⟨cause, read⟩ := payloadOf_cases (w.drop 4)
      · refine ⟨kind, bs, ?_⟩
        rw [payloadOf_eq_ok_iff.mp read, spell, Text.ofChars_append]
      · rw [read] at h
        cases h

/-! ### The parts of a payload

Behind the marker a payload has the length that its kind fixes, and its parts stand at fixed places.
-/

def expiryLength (kind : Kind) : Nat := if kind.embedsExpiry then 8 else 0

def idBytes (body : Bytes) : Bytes := body.take 16

def expiryBytes (kind : Kind) (body : Bytes) : Bytes := (body.drop 16).take (expiryLength kind)

def signatureBytes (body : Bytes) : Bytes := body.drop (body.length - 20)

/-- The expiry that the signature is made over. -/
def signedExpiry (kind : Kind) (body : Bytes) : Int :=
  if kind.embedsExpiry then (expiryBytes kind body).toInt64 else sentinel

/-- What a body says once its identifier is read. -/
def stated (kind : Kind) (v : SignatureVersion) (id : TokenId) (body : Bytes) : Decoded where
  kind
  id
  expiresAt := if kind.embedsExpiry then some (signedExpiry kind body) else none
  version := v

section Body

variable {kind : Kind} {body : Bytes}

theorem length_idBytes (h : body.length = kind.legacyLength) : (idBytes body).length = 16 := by
  rw [idBytes, List.length_take, h, Kind.legacyLength]
  omega

theorem length_expiryBytes (h : body.length = kind.legacyLength) :
    (expiryBytes kind body).length = expiryLength kind := by
  rw [expiryBytes, List.length_take, List.length_drop, h, Kind.legacyLength, expiryLength]
  omega

theorem length_signatureBytes (h : body.length = kind.legacyLength) :
    (signatureBytes body).length = 20 := by
  rw [signatureBytes, List.length_drop, h, Kind.legacyLength]
  omega

theorem drop_expiryBytes (h : body.length = kind.legacyLength) :
    (body.drop 16).drop (expiryBytes kind body).length = signatureBytes body := by
  rw [length_expiryBytes h, signatureBytes, List.drop_drop, h]
  rfl

theorem body_eq (h : body.length = kind.legacyLength) :
    body = idBytes body ++ (expiryBytes kind body ++ signatureBytes body) := by
  rw [← drop_expiryBytes h, length_expiryBytes h, expiryBytes, List.take_append_drop, idBytes,
    List.take_append_drop]

theorem idBytes_append {front : Bytes} (h : 16 ≤ front.length) (signature : Bytes) :
    idBytes (front ++ signature) = front.take 16 :=
  List.take_append_of_le_length h

theorem expiryBytes_append {front : Bytes} (h : front.length = 16 + expiryLength kind)
    (signature : Bytes) : expiryBytes kind (front ++ signature) = front.drop 16 := by
  have length : (front.drop 16).length = expiryLength kind := by
    rw [List.length_drop, h, Nat.add_sub_cancel_left]
  rw [expiryBytes, List.drop_append_of_le_length (by omega), ← length, List.take_left']
  rfl

theorem signatureBytes_append {signature : Bytes} (h : signature.length = 20) (front : Bytes) :
    signatureBytes (front ++ signature) = signature := by
  rw [signatureBytes, List.length_append, h, Nat.add_sub_cancel, List.drop_left']
  rfl

theorem verify_of_id (h : body.length = kind.legacyLength) {id : TokenId}
    (held : id.bytes = idBytes body) (c : Codec) (v : SignatureVersion) :
    c.verify kind v body =
      if signatureBytes body = c.sign v kind id (signedExpiry kind body) then
        .ok (stated kind v id body)
      else .error .badSignature := by
  have read : TokenId.ofBytes (body.take 16) = .ok id := TokenId.ofBytes_eq_ok_iff.mpr held
  rw [verify, read, ← drop_expiryBytes h]
  cases kind <;> rfl

theorem verify_of_no_id (kind : Kind) {body : Bytes} (none : ¬∃ id : TokenId, id.bytes = idBytes body)
    (c : Codec) (v : SignatureVersion) :
    ∃ cause, c.verify kind v body = .error (.malformed cause) := by
  cases read : TokenId.ofBytes (body.take 16) with
  | error cause => exact ⟨.badId cause, by rw [verify, read]⟩
  | ok id => exact absurd ⟨id, TokenId.ofBytes_eq_ok_iff.mp read⟩ none

theorem verify_eq_ok_iff (h : body.length = kind.legacyLength) {c : Codec} {v : SignatureVersion}
    {d : Decoded} :
    c.verify kind v body = .ok d ↔
      ∃ id : TokenId, id.bytes = idBytes body ∧
        signatureBytes body = c.sign v kind id (signedExpiry kind body) ∧
        stated kind v id body = d := by
  constructor
  · intro accepted
    by_cases identified : ∃ id : TokenId, id.bytes = idBytes body
    · obtain ⟨id, held⟩ := identified
      rw [verify_of_id h held] at accepted
      split at accepted
      · next signed => exact ⟨id, held, signed, Except.ok.inj accepted⟩
      · cases accepted
    · obtain ⟨cause, refused⟩ := verify_of_no_id kind identified c v
      rw [refused] at accepted
      cases accepted
  · rintro ⟨id, held, signed, rfl⟩
    rw [verify_of_id h held, if_pos signed]

end Body

/-! ### The two formats -/

/-- The payload is a marker and a body of the length that the kind fixes. -/
def Framed (kind : Kind) (v : SignatureVersion) (payload body : Bytes) : Prop :=
  payload = marker v ++ body ∧ body.length = kind.legacyLength

theorem split_plain (c : Codec) {kind : Kind} {payload : Bytes}
    (h : payload.length = kind.legacyLength) :
    c.split kind payload =
      if c.acceptLegacy then .ok (.plain, payload) else .error .legacyRefused := by
  rw [split, if_pos h]

theorem split_keyed (c : Codec) {kind : Kind} {payload : Bytes}
    (h : payload.length = kind.legacyLength + 1 ∧ payload.head? = some 2) :
    c.split kind payload = .ok (.keyed, payload.drop 1) := by
  rw [split, if_neg (by omega), if_pos h]

theorem split_neither (c : Codec) {kind : Kind} {payload : Bytes}
    (plain : payload.length ≠ kind.legacyLength)
    (keyed : ¬(payload.length = kind.legacyLength + 1 ∧ payload.head? = some 2)) :
    c.split kind payload = .error (.malformed (.badLength payload.length kind)) := by
  rw [split, if_neg plain, if_neg keyed]

theorem framed_keyed {kind : Kind} {payload : Bytes}
    (h : payload.length = kind.legacyLength + 1 ∧ payload.head? = some 2) :
    Framed kind .keyed payload (payload.drop 1) := by
  obtain ⟨length, front⟩ := h
  cases payload with
  | nil => cases front
  | cons b body =>
      cases front
      exact ⟨rfl, Nat.succ.inj length⟩

/-- A payload is taken for one in the format `v` exactly when it has that form, and the first format
only as far as the codec accepts it. -/
theorem split_eq_ok_iff {c : Codec} {kind : Kind} {payload body : Bytes} {v : SignatureVersion} :
    c.split kind payload = .ok (v, body) ↔
      Framed kind v payload body ∧ (v = .plain → c.acceptLegacy) := by
  constructor
  · intro h
    by_cases plain : payload.length = kind.legacyLength
    · rw [split_plain c plain] at h
      split at h
      · next accepts =>
          cases h
          exact ⟨⟨rfl, plain⟩, fun _ => accepts⟩
      · cases h
    · by_cases keyed : payload.length = kind.legacyLength + 1 ∧ payload.head? = some 2
      · rw [split_keyed c keyed] at h
        cases h
        exact ⟨framed_keyed keyed, nofun⟩
      · rw [split_neither c plain keyed] at h
        cases h
  · rintro ⟨⟨rfl, length⟩, accepts⟩
    cases v with
    | plain =>
        rw [marker, List.nil_append, split_plain c length, accepts rfl]
        rfl
    | keyed => exact split_keyed c ⟨by simp [marker, length], rfl⟩


/-- A text in a format that the codec accepts is as good as its body. -/
theorem decode_framed {c : Codec} {kind : Kind} {v : SignatureVersion} {payload body : Bytes}
    (framed : Framed kind v payload body) (accepts : v = .plain → c.acceptLegacy) :
    c.decode (spell kind payload) = c.verify kind v body := by
  rw [decode_spell, split_eq_ok_iff.mpr ⟨framed, accepts⟩]
  rfl

/-- How an accepted text is laid out, and what it says. -/
structure Verified (c : Codec) (w : Text) (d : Decoded) (payload body : Bytes) : Prop where
  spelled : w = spell d.kind payload
  framed : Framed d.kind d.version payload body
  accepted : d.version = .plain → c.acceptLegacy
  identified : d.id.bytes = idBytes body
  signed : signatureBytes body = c.sign d.version d.kind d.id (signedExpiry d.kind body)
  meaning : stated d.kind d.version d.id body = d

theorem verified_of_decode {c : Codec} {w : Text} {d : Decoded} (h : c.decode w = .ok d) :
    ∃ payload body, Verified c w d payload body := by
  obtain ⟨kind, payload, rfl⟩ := exists_spell_of_decode h
  rw [decode_spell] at h
  cases parts : c.split kind payload with
  | error cause =>
      rw [parts] at h
      cases h
  | ok r =>
      obtain ⟨v, body⟩ := r
      obtain ⟨framed, accepted⟩ := split_eq_ok_iff.mp parts
      rw [parts] at h
      obtain ⟨id, identified, signed, rfl⟩ := (verify_eq_ok_iff framed.2).mp h
      exact ⟨payload, body, rfl, framed, accepted, identified, signed, rfl⟩

end Codec

end BearerToken

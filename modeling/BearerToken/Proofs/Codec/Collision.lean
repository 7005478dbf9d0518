import Mathlib
import BearerToken.Proofs.Codec.RoundTrip
import BearerToken.Proofs.Numeral
import BearerToken.Proofs.Uuid

/-!
# What a signature is made over

The signed message is a concatenation without marks between its parts, but no two tokens share one:
the tag and the identifier have fixed widths, the secret is the same for all tokens of a codec, and
what is left is the expiry in decimal. So the digest alone keeps the parts of a token together. Who
presents two texts under one signature, be it the body of a token under the tag of another kind or
with another identifier or expiry, presents two messages with one digest.
-/

namespace BearerToken

namespace Kind

@[simp] theorem length_tag (k : Kind) : k.tag.toList.length = 3 := by
  cases k <;> rfl

theorem tag_injective {k k' : Kind} (same : k.tag.toList = k'.tag.toList) : k = k' := by
  have listed : ∀ k ∈ all, ∀ k' ∈ all, k.tag.toList = k'.tag.toList → k = k' := by decide
  exact listed k (mem_all k) k' (mem_all k') same

end Kind

namespace Codec

/-- The secret stands inside the message in the first format alone. -/
def inner (c : Codec) : SignatureVersion → String
  | .plain => c.secret
  | .keyed => ""

theorem toList_messageText (c : Codec) (v : SignatureVersion) (kind : Kind) (id : TokenId)
    (expires : Int) :
    (c.messageText v kind id expires).toList =
      kind.tag.toList ++ (id.canonical.toList ++
        ((c.inner v).toList ++ Numeral.chars expires)) := by
  cases v <;> simp [messageText, inner, Numeral.write]

/-- Widths settle the first two parts of a message, whatever the secrets are. -/
theorem parts_of_message_eq {c c' : Codec} {v : SignatureVersion} {kind kind' : Kind}
    {id id' : TokenId} {expires expires' : Int}
    (same : c.message v kind id expires = c'.message v kind' id' expires') :
    kind = kind' ∧ id = id' ∧
      (c.inner v).toList ++ Numeral.chars expires =
        (c'.inner v).toList ++ Numeral.chars expires' := by
  have texts := congrArg String.toList (Bytes.ofString_injective same)
  rw [toList_messageText, toList_messageText] at texts
  obtain ⟨tags, behind⟩ := List.append_inj texts (by simp)
  obtain ⟨ids, ends⟩ := List.append_inj behind (by simp)
  exact ⟨Kind.tag_injective tags, TokenId.canonical_injective ids, ends⟩

/-- No two tokens have one message. Under one secret the last part is a decimal of any length. -/
theorem message_injective {c : Codec} {v : SignatureVersion} {kind kind' : Kind} {id id' : TokenId}
    {expires expires' : Int}
    (same : c.message v kind id expires = c.message v kind' id' expires') :
    kind = kind' ∧ id = id' ∧ expires = expires' := by
  obtain ⟨kinds, ids, ends⟩ := parts_of_message_eq same
  exact ⟨kinds, ids, Numeral.chars_injective (List.append_cancel_left ends)⟩

/-- The digest of a format, under the codec's secret. -/
def digest (c : Codec) : SignatureVersion → Bytes → Bytes
  | .plain => c.digests.plain
  | .keyed => c.digests.keyed (.ofString c.secret)

theorem sign_eq_digest (c : Codec) (v : SignatureVersion) (kind : Kind) (id : TokenId)
    (expires : Int) : c.sign v kind id expires = c.digest v (c.message v kind id expires) := by
  cases v <;> rfl

/-- The message behind the signature of a text, from what the text says. -/
def signedMessage (c : Codec) (d : Decoded) : Bytes :=
  c.message d.version d.kind d.id (d.expiresAt.getD sentinel)

/-- A token is determined by its message and its format. -/
theorem eq_of_signedMessage_eq {c : Codec} {d d' : Decoded} (version : d.version = d'.version)
    (embeds : d.expiresAt = embedded d.kind (d.expiresAt.getD sentinel))
    (embeds' : d'.expiresAt = embedded d'.kind (d'.expiresAt.getD sentinel))
    (same : c.signedMessage d = c.signedMessage d') : d = d' := by
  rw [signedMessage, signedMessage, version] at same
  obtain ⟨kind, id, expires⟩ := message_injective same
  have expiry : d.expiresAt = d'.expiresAt := by
    rw [embeds, embeds', kind, expires]
  obtain ⟨_, _, _, _⟩ := d
  obtain ⟨_, _, _, _⟩ := d'
  cases kind
  cases id
  cases expiry
  cases version
  rfl

namespace Verified

variable {c : Codec} {w : Text} {d : Decoded} {payload body : Bytes}

theorem signedExpiry_eq (h : Verified c w d payload body) :
    signedExpiry d.kind body = d.expiresAt.getD sentinel := by
  have expiry := congrArg Decoded.expiresAt h.meaning
  rw [← expiry, stated]
  cases embeds : d.kind.embedsExpiry with
  | false => simp [signedExpiry, embeds]
  | true => simp

theorem expiresAt_eq (h : Verified c w d payload body) :
    d.expiresAt = embedded d.kind (d.expiresAt.getD sentinel) := by
  rw [← h.signedExpiry_eq]
  exact (congrArg Decoded.expiresAt h.meaning).symm

/-- The text is the one that is put together from what it says. -/
theorem eq_spell (h : Verified c w d payload body) :
    w = spell d.kind (({ c with version := d.version } : Codec).payload d.kind d.id
      (d.expiresAt.getD sentinel)) := by
  have shares : SharesSecret c { c with version := d.version } := ⟨rfl, rfl⟩
  rw [(payload_of_verified h shares rfl h.expiresAt_eq).1]
  exact h.spelled

/-- The last twenty bytes are the digest of the message. -/
theorem digest_signedMessage (h : Verified c w d payload body) {rest signature : Bytes}
    (length : signature.length = 20) (carried : w = spell d.kind (rest ++ signature)) :
    c.digest d.version (c.signedMessage d) = signature := by
  have same : payload = rest ++ signature := spell_injective (h.spelled.symm.trans carried)
  obtain ⟨before, -, rfl, -⟩ := framed_replace (same ▸ h.framed) length length
  rw [signedMessage, ← h.signedExpiry_eq, ← sign_eq_digest, ← h.signed,
    signatureBytes_append length]

end Verified

/-- Different tokens have different messages, so two texts that are accepted in one format and carry
one signature show two messages of which it is the digest. Of the digest nothing is assumed. -/
theorem collision_of_shared_signature (c : Codec) (v : SignatureVersion) :
    (∀ (kind kind' : Kind) (id id' : TokenId) (expires expires' : Int),
      c.message v kind id expires = c.message v kind' id' expires' →
        kind = kind' ∧ id = id' ∧ expires = expires') ∧
    ∀ (w w' : Text) (d d' : Decoded) (rest rest' signature : Bytes),
      c.decode w = .ok d → c.decode w' = .ok d' → d.version = v → d'.version = v → w ≠ w' →
      signature.length = 20 → w = spell d.kind (rest ++ signature) →
      w' = spell d'.kind (rest' ++ signature) →
        c.signedMessage d ≠ c.signedMessage d' ∧ c.digest v (c.signedMessage d) = signature ∧
          c.digest v (c.signedMessage d') = signature := by
  refine ⟨fun _ _ _ _ _ _ => message_injective, ?_⟩
  rintro w w' d d' rest rest' signature read read' rfl version differ length carried carried'
  obtain ⟨payload, body, verified⟩ := verified_of_decode read
  obtain ⟨payload', body', verified'⟩ := verified_of_decode read'
  refine ⟨?_, verified.digest_signedMessage length carried, ?_⟩
  · intro same
    have token := eq_of_signedMessage_eq version.symm verified.expiresAt_eq verified'.expiresAt_eq
      same
    subst token
    exact differ (verified.eq_spell.trans verified'.eq_spell.symm)
  · rw [← version]
    exact verified'.digest_signedMessage length carried'

/-- A digest that is the same for every message lets one body pass under two tags; the two messages
are there to be seen. -/
theorem collision_of_shared_signature_constant :
    let signature : Bytes := List.replicate 20 0
    let digests : Digests :=
      ⟨fun _ => signature, fun _ _ => signature, fun _ => rfl, fun _ _ => rfl⟩
    let c : Codec := ⟨"s", by decide, .plain, true, digests⟩
    let id : TokenId := .generate 1700000000000 ⟨1, 2⟩
    let d : Decoded := ⟨.offline, id, none, .plain⟩
    let d' : Decoded := ⟨.email, id, none, .plain⟩
    let w := spell .offline (id.bytes ++ signature)
    let w' := spell .email (id.bytes ++ signature)
    c.decode w = .ok d ∧ c.decode w' = .ok d' ∧ w ≠ w' ∧
      c.signedMessage d ≠ c.signedMessage d' ∧
      c.digest .plain (c.signedMessage d) = c.digest .plain (c.signedMessage d') := by
  intro signature digests c id d d' w w'
  have read : c.decode w = .ok d := by decide +kernel
  have read' : c.decode w' = .ok d' := by decide +kernel
  have differ : w ≠ w' := by decide +kernel
  obtain ⟨-, collide⟩ := collision_of_shared_signature c .plain
  obtain ⟨messages, digest, digest'⟩ :=
    collide w w' d d' id.bytes id.bytes signature read read' rfl rfl differ rfl rfl rfl
  exact ⟨read, read', differ, messages, digest.trans digest'.symm⟩

end Codec

end BearerToken

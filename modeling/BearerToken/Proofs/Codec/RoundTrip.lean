import Mathlib
import BearerToken.Proofs.Codec.Layout

/-!
# Writing and reading token texts

Reading is the inverse of writing, in both directions. What a codec writes, every codec with its
secret reads, in whichever of the two formats it was written, unless it refuses the first one. And a
text that is read at all is the text that is written for what it says, so it has no second spelling.
Both rest on one fact about payloads: laying out and taking apart undo each other.
-/

namespace BearerToken.Codec

/-- Two codecs that sign with the same secret and the same digests, whatever else they are set to. -/
def SharesSecret (c c' : Codec) : Prop := c'.secret = c.secret ∧ c'.digests = c.digests

theorem SharesSecret.sign_eq {c c' : Codec} (h : SharesSecret c c') (v : SignatureVersion)
    (kind : Kind) (id : TokenId) (expires : Int) :
    c'.sign v kind id expires = c.sign v kind id expires := by
  simp only [sign, message, messageText, h.1, h.2]

/-- Whether an expiry fits the place that the kind gives it. -/
def Fits (kind : Kind) (expires : Int) : Prop :=
  kind.embedsExpiry → -2 ^ 63 ≤ expires ∧ expires < 2 ^ 63

/-- The expiry that a token of the kind states. -/
def embedded (kind : Kind) (expires : Int) : Option Int :=
  if kind.embedsExpiry then some expires else none

theorem encode_of_fits {c : Codec} {kind : Kind} {id : TokenId} {ttlMs : Int}
    (h : Fits kind (id.timestampMs + ttlMs)) :
    ∃ wire, c.encode kind id ttlMs = .ok wire ∧
      Text.ofString wire = spell kind (c.payload kind id (id.timestampMs + ttlMs)) := by
  refine ⟨_, if_neg ?_, ?_⟩
  · rintro ⟨embeds, outside⟩
    exact outside (h embeds)
  · rw [Text.ofString, String.toList_ofList, spell]

/-- A text is encoded only where the expiry fits. -/
theorem fits_of_encode {c : Codec} {kind : Kind} {id : TokenId} {ttlMs : Int} {wire : String}
    (h : c.encode kind id ttlMs = .ok wire) :
    Fits kind (id.timestampMs + ttlMs) ∧
      Text.ofString wire = spell kind (c.payload kind id (id.timestampMs + ttlMs)) := by
  by_cases fits : Fits kind (id.timestampMs + ttlMs)
  · obtain ⟨wire', encoded, spelled⟩ := encode_of_fits (c := c) fits
    rw [encoded] at h
    cases h
    exact ⟨fits, spelled⟩
  · rw [Fits, Classical.not_imp] at fits
    rw [encode, if_pos fits] at h
    cases h

/-- What stands in front of the signature: the identifier and the expiry. -/
def front (kind : Kind) (id : TokenId) (expires : Int) : Bytes :=
  id.bytes ++ (expiryParts kind expires).2

theorem payload_eq (c : Codec) (kind : Kind) (id : TokenId) (expires : Int) :
    c.payload kind id expires = marker c.version ++
      (front kind id expires ++ c.sign c.version kind id (expiryParts kind expires).1) := by
  simp [payload, front]

theorem length_front (kind : Kind) (id : TokenId) (expires : Int) :
    (front kind id expires).length = 16 + expiryLength kind := by
  rw [front, List.length_append, TokenId.bytes, Uuid.length_bytes]
  cases kind <;> rfl

theorem framed_payload (c : Codec) (kind : Kind) (id : TokenId) (expires : Int) :
    Framed kind c.version (c.payload kind id expires)
      (front kind id expires ++ c.sign c.version kind id (expiryParts kind expires).1) := by
  refine ⟨payload_eq c kind id expires, ?_⟩
  rw [List.length_append, length_front, length_sign]
  rfl

theorem take_front (kind : Kind) (id : TokenId) (expires : Int) :
    (front kind id expires).take 16 = id.bytes :=
  List.take_left' (Uuid.length_bytes id.uuid)

theorem drop_front (kind : Kind) (id : TokenId) (expires : Int) :
    (front kind id expires).drop 16 = (expiryParts kind expires).2 :=
  List.drop_left' (Uuid.length_bytes id.uuid)

theorem idBytes_front (kind : Kind) (id : TokenId) (expires : Int) (signature : Bytes) :
    idBytes (front kind id expires ++ signature) = id.bytes := by
  rw [idBytes_append (by rw [length_front]; omega), take_front]

/-- The expiry that was laid out is the one that is read, if it fits. -/
theorem signedExpiry_front {kind : Kind} {expires : Int} (h : Fits kind expires) (id : TokenId)
    (signature : Bytes) :
    signedExpiry kind (front kind id expires ++ signature) = (expiryParts kind expires).1 := by
  rw [signedExpiry, expiryBytes_append (length_front kind id expires), drop_front, expiryParts]
  split
  · next embeds =>
      obtain ⟨low, high⟩ := h embeds
      exact Bytes.toInt64_ofInt64 low high
  · rfl

theorem stated_front {kind : Kind} {expires : Int} (h : Fits kind expires) (v : SignatureVersion)
    (id : TokenId) (signature : Bytes) :
    stated kind v id (front kind id expires ++ signature) =
      ⟨kind, id, embedded kind expires, v⟩ := by
  rw [stated, signedExpiry_front h, expiryParts, embedded]
  split <;> rfl

/-- A payload that was put together is taken apart into what was put into it. -/
theorem decode_payload {c c' : Codec} (shares : SharesSecret c c') {kind : Kind} {expires : Int}
    (h : Fits kind expires) (id : TokenId) (accepts : c.version = .plain → c'.acceptLegacy) :
    c'.decode (spell kind (c.payload kind id expires)) =
      .ok ⟨kind, id, embedded kind expires, c.version⟩ := by
  have framed := framed_payload c kind id expires
  rw [decode_framed framed accepts, verify_eq_ok_iff framed.2]
  refine ⟨id, (idBytes_front kind id expires _).symm, ?_, stated_front h ..⟩
  rw [signedExpiry_front h, shares.sign_eq, signatureBytes_append (length_sign ..)]

theorem decode_payload_refused {c c' : Codec} (plain : c.version = .plain)
    (refuses : c'.acceptLegacy = false) (kind : Kind) (id : TokenId) (expires : Int) :
    c'.decode (spell kind (c.payload kind id expires)) = .error .legacyRefused := by
  have framed := framed_payload c kind id expires
  have length : (c.payload kind id expires).length = kind.legacyLength := by
    rw [framed.1, List.length_append, framed.2, plain, marker, List.length_nil, Nat.zero_add]
  rw [decode_spell, split_plain c' length, refuses]
  rfl

/-- What is encoded is decoded by every codec with the same secret, whichever format it writes,
unless it refuses the format in which the text was written. -/
theorem decode_encoded (c : Codec) (kind : Kind) (id : TokenId) (ttlMs : Int)
    (fits : kind.embedsExpiry →
      -2 ^ 63 ≤ id.timestampMs + ttlMs ∧ id.timestampMs + ttlMs < 2 ^ 63) :
    ∃ wire, c.encode kind id ttlMs = .ok wire ∧
      ∀ c' : Codec, SharesSecret c c' →
        c'.decode wire =
          if c.version = .keyed ∨ c'.acceptLegacy then
            .ok ⟨kind, id, if kind.embedsExpiry then some (id.timestampMs + ttlMs) else none,
              c.version⟩
          else .error .legacyRefused := by
  obtain ⟨wire, encoded, spelled⟩ := encode_of_fits fits
  refine ⟨wire, encoded, fun c' shares => ?_⟩
  rw [spelled]
  split
  · next accepted =>
      refine decode_payload shares fits id fun plain => ?_
      obtain keyed | accepts := accepted
      · rw [keyed] at plain
        cases plain
      · exact accepts
  · next refused =>
      obtain ⟨notKeyed, refuses⟩ := not_or.mp refused
      refine decode_payload_refused ?_ (Bool.eq_false_iff.mpr refuses) ..
      cases version : c.version with
      | plain => rfl
      | keyed => exact absurd version notKeyed

/-- The least time that an identifier can have, with the last expiry that has a place. -/
theorem decode_encoded_last_expiry :
    let c : Codec := ⟨"s", by decide, .plain, true, .standard⟩
    let id : TokenId := ⟨⟨0x1000_8000_0000_0000_0000, by decide⟩, by decide⟩
    let ttlMs : Int := 2 ^ 63 - 1 + 12219292800000
    (id.timestampMs + ttlMs = 2 ^ 63 - 1) ∧
    ∃ wire, c.encode .refresh id ttlMs = .ok wire ∧
      ({ c with version := .keyed } : Codec).decode wire =
        .ok ⟨.refresh, id, some (2 ^ 63 - 1), .plain⟩ ∧
      ({ c with acceptLegacy := false } : Codec).decode wire = .error .legacyRefused := by
  intro c id ttlMs
  have last : id.timestampMs + ttlMs = 2 ^ 63 - 1 := by decide
  obtain ⟨wire, encoded, reads⟩ := decode_encoded c .refresh id ttlMs (by rw [last]; decide)
  refine ⟨last, wire, encoded, ?_, ?_⟩
  · rw [reads { c with version := .keyed } ⟨rfl, rfl⟩, last]
    rfl
  · rw [reads { c with acceptLegacy := false } ⟨rfl, rfl⟩]
    rfl

/-- The parts of a body are what its identifier and its expiry are laid out as. -/
theorem front_eq {kind : Kind} {body : Bytes} {id : TokenId} {expires : Int} {v : SignatureVersion}
    (length : body.length = kind.legacyLength) (held : id.bytes = idBytes body)
    (expiry : (stated kind v id body).expiresAt = embedded kind expires) :
    front kind id expires = idBytes body ++ expiryBytes kind body ∧
      (expiryParts kind expires).1 = signedExpiry kind body ∧ Fits kind expires := by
  have width := length_expiryBytes length
  cases embeds : kind.embedsExpiry with
  | false =>
      have none : expiryBytes kind body = [] := by
        rw [← List.length_eq_zero_iff, width, expiryLength, embeds]
        rfl
      refine ⟨?_, ?_, fun absurdly => ?_⟩
      · simp [front, expiryParts, embeds, none, held]
      · simp [expiryParts, signedExpiry, embeds]
      · simp [embeds] at absurdly
  | true =>
      have eight : (expiryBytes kind body).length = 8 := by
        rw [width, expiryLength, embeds]
        rfl
      have value : expires = (expiryBytes kind body).toInt64 := by
        simpa [stated, embedded, signedExpiry, embeds] using expiry.symm
      refine ⟨?_, ?_, fun _ => ?_⟩
      · simp [front, expiryParts, embeds, held, value, Bytes.ofInt64_toInt64 eight]
      · simp [expiryParts, signedExpiry, embeds, value]
      · rw [value]
        exact Bytes.toInt64_range eight

/-- The payload of an accepted text is the one that is put together from what the text says. -/
theorem payload_of_verified {c c' : Codec} {w : Text} {d : Decoded} {payload body : Bytes}
    (h : Verified c w d payload body) (shares : SharesSecret c c') (version : c'.version = d.version)
    {expires : Int} (expiry : d.expiresAt = embedded d.kind expires) :
    c'.payload d.kind d.id expires = payload ∧ Fits d.kind expires := by
  rw [← h.meaning] at expiry
  obtain ⟨parts, signed, fits⟩ := front_eq h.framed.2 h.identified expiry
  refine ⟨?_, fits⟩
  calc c'.payload d.kind d.id expires
      = marker d.version ++ (idBytes body ++ expiryBytes d.kind body ++
          c'.sign d.version d.kind d.id (signedExpiry d.kind body)) := by
        rw [payload_eq, version, parts, signed]
    _ = marker d.version ++ body := by
        rw [shares.sign_eq, ← h.signed, List.append_assoc, ← body_eq h.framed.2]
    _ = payload := h.framed.1.symm

/-- A body keeps its format when its signature is replaced. -/
theorem framed_replace {kind : Kind} {v : SignatureVersion} {rest signature signature' body : Bytes}
    (h : Framed kind v (rest ++ signature) body) (length : signature.length = 20)
    (length' : signature'.length = 20) :
    ∃ before : Bytes, before.length = 16 + expiryLength kind ∧ body = before ++ signature ∧
      Framed kind v (rest ++ signature') (before ++ signature') := by
  obtain ⟨parts, total⟩ := h
  have expected : kind.legacyLength = 16 + expiryLength kind + 20 := rfl
  obtain ⟨before, _, tooShort⟩ | ⟨before, rfl, rfl⟩ := List.append_eq_append_iff.mp parts
  · have : signature.length = before.length + body.length := by
      rw [tooShort, List.length_append]
    omega
  · rw [List.length_append] at total
    refine ⟨before, by omega, rfl, List.append_assoc .., ?_⟩
    rw [List.length_append]
    omega

theorem decode_replaced {c : Codec} {w : Text} {d : Decoded} (h : c.decode w = .ok d)
    {rest signature signature' : Bytes} (spelled : w = spell d.kind (rest ++ signature))
    (length : signature.length = 20) (length' : signature'.length = 20)
    (differs : signature' ≠ signature) :
    c.decode (spell d.kind (rest ++ signature')) = .error .badSignature := by
  obtain ⟨payload, body, verified⟩ := verified_of_decode h
  have same : payload = rest ++ signature := spell_injective (verified.spelled.symm.trans spelled)
  obtain ⟨before, width, rfl, framed'⟩ := framed_replace (same ▸ verified.framed) length length'
  have identified : idBytes (before ++ signature') = idBytes (before ++ signature) := by
    rw [idBytes_append (by omega), idBytes_append (by omega)]
  have expiry : signedExpiry d.kind (before ++ signature') =
      signedExpiry d.kind (before ++ signature) := by
    rw [signedExpiry, signedExpiry, expiryBytes_append width, expiryBytes_append width]
  have signed := verified.signed
  rw [signatureBytes_append length] at signed
  rw [decode_framed framed' verified.accepted,
    verify_of_id framed'.2 (verified.identified.trans identified.symm), expiry, ← signed,
    signatureBytes_append length', if_neg differs]

/-- An accepted text is the one that a codec with the same secret writes for what the text says, in
the format that it was read in. So no other text says the same, and none is accepted that differs
from it in the signature alone. -/
theorem decoded_spelling (c : Codec) (w : Text) (d : Decoded) (h : c.decode w = .ok d) :
    (∃ ttlMs, d.expiresAt = embedded d.kind (d.id.timestampMs + ttlMs)) ∧
    (∀ (c' : Codec) (ttlMs : Int), SharesSecret c c' → c'.version = d.version →
      d.expiresAt = embedded d.kind (d.id.timestampMs + ttlMs) →
      ∃ wire, c'.encode d.kind d.id ttlMs = .ok wire ∧ Text.ofString wire = w) ∧
    (∀ w', c.decode w' = .ok d → w' = w) ∧
    ∀ rest signature signature' : Bytes, w = spell d.kind (rest ++ signature) →
      signature.length = 20 → signature'.length = 20 → signature' ≠ signature →
      c.decode (spell d.kind (rest ++ signature')) = .error .badSignature := by
  obtain ⟨payload, body, verified⟩ := verified_of_decode h
  have written : ∃ ttlMs, d.expiresAt = embedded d.kind (d.id.timestampMs + ttlMs) := by
    have expiry : d.expiresAt = embedded d.kind (signedExpiry d.kind body) :=
      congrArg Decoded.expiresAt verified.meaning.symm
    refine ⟨signedExpiry d.kind body - d.id.timestampMs, ?_⟩
    rw [expiry]
    congr 1
    omega
  have spelling : ∀ (c' : Codec) (ttlMs : Int), SharesSecret c c' → c'.version = d.version →
      d.expiresAt = embedded d.kind (d.id.timestampMs + ttlMs) →
      ∃ wire, c'.encode d.kind d.id ttlMs = .ok wire ∧ Text.ofString wire = w := by
    intro c' ttlMs shares version expiry
    obtain ⟨same, fits⟩ := payload_of_verified verified shares version expiry
    obtain ⟨wire, encoded, spelled⟩ := encode_of_fits (c := c') fits
    exact ⟨wire, encoded, by rw [spelled, same, ← verified.spelled]⟩
  refine ⟨written, spelling, ?_, fun rest signature signature' => decode_replaced h⟩
  intro w' h'
  obtain ⟨ttlMs, expiry⟩ := written
  obtain ⟨payload', body', verified'⟩ := verified_of_decode h'
  let writer : Codec := { c with version := d.version }
  have shares : SharesSecret c writer := ⟨rfl, rfl⟩
  have same := (payload_of_verified verified shares rfl expiry).1
  have same' := (payload_of_verified verified' shares rfl expiry).1
  rw [verified'.spelled, ← same', same, ← verified.spelled]

/-- An accepted text in the second format, and nothing else that says the same. -/
theorem decoded_spelling_keyed :
    let c : Codec := ⟨"s", by decide, .plain, false, .standard⟩
    let w : Text := "YWNjAgGLz-VoAHABgAAAAAAAAAIAAAGLz-V7iDp-rTX3LRv6OedRHPv13AP-zdEA"
    let d : Decoded := ⟨.access, .generate 1700000000000 ⟨1, 2⟩, some 1700000005000, .keyed⟩
    c.decode w = .ok d ∧
      (∃ wire, ({ c with version := .keyed } : Codec).encode .access d.id 5000 = .ok wire ∧
        Text.ofString wire = w) ∧
      ∀ w', c.decode w' = .ok d → w' = w := by
  intro c w d
  have accepted : c.decode w = .ok d := by decide +kernel
  obtain ⟨-, spelling, unique, -⟩ := decoded_spelling c w d accepted
  exact ⟨accepted, spelling { c with version := .keyed } 5000 ⟨rfl, rfl⟩ rfl (by decide), unique⟩

end BearerToken.Codec

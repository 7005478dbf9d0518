import Mathlib
import BearerToken.Proofs.Codec.Layout

/-!
# How reading a token text ends

Reading ends in one of four ways, and which one is told by the text alone: by the tag that it starts
with, by its spelling and the length behind the tag, by two of the sixteen bytes of the identifier,
and by the signature. A codec that refuses the first format does so before it looks at the
identifier.
-/

namespace BearerToken.Codec

/-- The ways in which reading a token text ends. -/
inductive Ending where
  | unknownKind
  | malformed
  | invalidSignature
  | verified
  deriving Repr, DecidableEq

/-- The ending that a result stands for. Two rejections come from elsewhere: that what was presented
is no text, and that a verified token has expired. -/
def ending? : Except Rejection Decoded → Option Ending
  | .ok _ => some .verified
  | .error .unknownKind => some .unknownKind
  | .error (.malformed _) => some .malformed
  | .error .legacyRefused | .error .badSignature => some .invalidSignature
  | .error .notText | .error (.expired _ _) => none

/-- The length of the first format. -/
def IsPlain (kind : Kind) (payload : Bytes) : Prop := payload.length = kind.legacyLength

/-- One byte more, with the marker of the second format in front. -/
def IsKeyed (kind : Kind) (payload : Bytes) : Prop :=
  payload.length = kind.legacyLength + 1 ∧ payload.head? = some 2

/-- A payload that has no format, or no identifier with a time where one is looked for. -/
def HasBadLayout (c : Codec) (kind : Kind) (payload : Bytes) : Prop :=
  (¬IsPlain kind payload ∧ ¬IsKeyed kind payload) ∨
  (IsKeyed kind payload ∧ ¬TokenId.Readable (idBytes (payload.drop 1))) ∨
  (IsPlain kind payload ∧ c.acceptLegacy ∧ ¬TokenId.Readable (idBytes payload))

/-- A payload of the first format where that is refused, or one with an identifier whose signature
is not the one that is made anew. -/
def HasBadSignature (c : Codec) (kind : Kind) (payload : Bytes) : Prop :=
  (IsPlain kind payload ∧ ¬c.acceptLegacy) ∨
  ∃ v body, Framed kind v payload body ∧ ∃ id : TokenId, id.bytes = idBytes body ∧
    signatureBytes body ≠ c.sign v kind id (signedExpiry kind body)

/-- The text of a payload behind the tag. -/
def Spells (t : Text) (payload : Bytes) : Prop := t = Text.ofChars (Base64Url.encode payload)

def IsMalformed (c : Codec) (kind : Kind) (t : Text) : Prop :=
  (¬∃ payload, Spells t payload) ∨ ∃ payload, Spells t payload ∧ HasBadLayout c kind payload

def IsUnsigned (c : Codec) (kind : Kind) (t : Text) : Prop :=
  ∃ payload, Spells t payload ∧ HasBadSignature c kind payload

theorem Spells.unique {t : Text} {bs cs : Bytes} (h : Spells t bs) (h' : Spells t cs) : bs = cs :=
  Base64Url.encode_injective (Text.ofChars_inj.mp (h.symm.trans h'))

theorem Spells.isMalformed_iff {t : Text} {payload : Bytes} (h : Spells t payload) (c : Codec)
    (kind : Kind) : IsMalformed c kind t ↔ HasBadLayout c kind payload := by
  constructor
  · rintro (none | ⟨other, spells, bad⟩)
    · exact absurd ⟨payload, h⟩ none
    · rwa [h.unique spells]
  · intro bad
    exact .inr ⟨payload, h, bad⟩

theorem Spells.isUnsigned_iff {t : Text} {payload : Bytes} (h : Spells t payload) (c : Codec)
    (kind : Kind) : IsUnsigned c kind t ↔ HasBadSignature c kind payload := by
  constructor
  · rintro ⟨other, spells, bad⟩
    rwa [h.unique spells]
  · intro bad
    exact ⟨payload, h, bad⟩

theorem Framed.unique {kind : Kind} {v v' : SignatureVersion} {payload body body' : Bytes}
    (h : Framed kind v payload body) (h' : Framed kind v' payload body') :
    v = v' ∧ body = body' := by
  obtain ⟨rfl, length⟩ := h
  obtain ⟨same, length'⟩ := h'
  have total := congrArg List.length same
  rw [List.length_append, List.length_append, length, length'] at total
  cases v <;> cases v' <;> simp_all [marker]

theorem framed_of_isPlain {kind : Kind} {payload : Bytes} (h : IsPlain kind payload) :
    Framed kind .plain payload payload :=
  ⟨rfl, h⟩

theorem isPlain_iff {kind : Kind} {v : SignatureVersion} {payload body : Bytes}
    (h : Framed kind v payload body) : IsPlain kind payload ↔ v = .plain := by
  constructor
  · intro plain
    exact (h.unique (framed_of_isPlain plain)).1
  · rintro rfl
    exact h.1 ▸ h.2

theorem isKeyed_iff {kind : Kind} {v : SignatureVersion} {payload body : Bytes}
    (h : Framed kind v payload body) : IsKeyed kind payload ↔ v = .keyed := by
  constructor
  · intro keyed
    exact (h.unique (framed_keyed keyed)).1
  · rintro rfl
    obtain ⟨rfl, length⟩ := h
    exact ⟨congrArg (· + 1) length, rfl⟩

/-- In a payload that has a format only the identifier can be amiss. -/
theorem hasBadLayout_iff {c : Codec} {kind : Kind} {v : SignatureVersion} {payload body : Bytes}
    (h : Framed kind v payload body) :
    HasBadLayout c kind payload ↔
      (v = .plain → c.acceptLegacy) ∧ ¬∃ id : TokenId, id.bytes = idBytes body := by
  rw [HasBadLayout, isPlain_iff h, isKeyed_iff h, TokenId.exists_bytes_eq_iff]
  obtain ⟨rfl, -⟩ := h
  cases v <;> simp [marker]

theorem hasBadSignature_iff {c : Codec} {kind : Kind} {v : SignatureVersion} {payload body : Bytes}
    (h : Framed kind v payload body) :
    HasBadSignature c kind payload ↔
      ¬(v = .plain → c.acceptLegacy) ∨ ∃ id : TokenId, id.bytes = idBytes body ∧
        signatureBytes body ≠ c.sign v kind id (signedExpiry kind body) := by
  rw [HasBadSignature, isPlain_iff h, Classical.not_imp]
  refine or_congr_right ⟨?_, fun bad => ⟨v, body, h, bad⟩⟩
  rintro ⟨v', body', framed, bad⟩
  obtain ⟨rfl, rfl⟩ := h.unique framed
  exact bad

/-- What the ending is for a payload. The faults exclude each other, and without them the text is
accepted. -/
structure EndsAs (c : Codec) (kind : Kind) (payload : Bytes) (e : Ending) : Prop where
  ending : ending? (c.decode (spell kind payload)) = some e
  known : e ≠ .unknownKind
  layout : e = .malformed ↔ HasBadLayout c kind payload
  signature : e = .invalidSignature ↔ HasBadSignature c kind payload

theorem endsAs_of_framed (c : Codec) {kind : Kind} {v : SignatureVersion} {payload body : Bytes}
    (h : Framed kind v payload body) : ∃ e, EndsAs c kind payload e := by
  have layout := hasBadLayout_iff (c := c) h
  have signature := hasBadSignature_iff (c := c) h
  by_cases accepts : v = .plain → c.acceptLegacy
  · have reading := decode_framed h accepts
    by_cases identified : ∃ id : TokenId, id.bytes = idBytes body
    · have fine : ¬HasBadLayout c kind payload := fun bad => (layout.mp bad).2 identified
      obtain ⟨id, held⟩ := identified
      rw [verify_of_id h.2 held] at reading
      by_cases signed : signatureBytes body = c.sign v kind id (signedExpiry kind body)
      · rw [if_pos signed] at reading
        refine ⟨.verified, by rw [reading]; rfl, nofun, iff_of_false nofun fine,
          iff_of_false nofun fun bad => ?_⟩
        obtain refuses | ⟨other, held', differs⟩ := signature.mp bad
        · exact refuses accepts
        · cases TokenId.bytes_injective (held'.trans held.symm)
          exact differs signed
      · rw [if_neg signed] at reading
        exact ⟨.invalidSignature, by rw [reading]; rfl, nofun, iff_of_false nofun fine,
          iff_of_true rfl (signature.mpr (.inr ⟨id, held, signed⟩))⟩
    · obtain ⟨cause, refused⟩ := verify_of_no_id kind identified c v
      rw [refused] at reading
      refine ⟨.malformed, by rw [reading]; rfl, nofun,
        iff_of_true rfl (layout.mpr ⟨accepts, identified⟩), iff_of_false nofun fun bad => ?_⟩
      obtain refuses | ⟨id, held, -⟩ := signature.mp bad
      · exact refuses accepts
      · exact identified ⟨id, held⟩
  · -- Only the first format can be refused, and that is done before the identifier is read.
    obtain ⟨rfl, refuses⟩ := Classical.not_imp.mp accepts
    have reading : c.decode (spell kind payload) = .error .legacyRefused := by
      rw [decode_spell, split_plain c ((isPlain_iff h).mpr rfl), if_neg refuses]
      rfl
    exact ⟨.invalidSignature, by rw [reading]; rfl, nofun,
      iff_of_false nofun fun bad => accepts (layout.mp bad).1,
      iff_of_true rfl (signature.mpr (.inl accepts))⟩

theorem endsAs_of_not_framed (c : Codec) {kind : Kind} {payload : Bytes}
    (plain : ¬IsPlain kind payload) (keyed : ¬IsKeyed kind payload) :
    EndsAs c kind payload .malformed := by
  have reading : c.decode (spell kind payload) =
      .error (.malformed (.badLength payload.length kind)) := by
    rw [decode_spell, split_neither c plain keyed]
    rfl
  refine ⟨by rw [reading]; rfl, nofun, iff_of_true rfl (.inl ⟨plain, keyed⟩),
    iff_of_false nofun ?_⟩
  rintro (⟨isPlain, -⟩ | ⟨v, body, framed, -⟩)
  · exact plain isPlain
  · cases v with
    | plain => exact plain ((isPlain_iff framed).mpr rfl)
    | keyed => exact keyed ((isKeyed_iff framed).mpr rfl)

theorem exists_endsAs (c : Codec) (kind : Kind) (payload : Bytes) :
    ∃ e, EndsAs c kind payload e := by
  by_cases plain : IsPlain kind payload
  · exact endsAs_of_framed c (framed_of_isPlain plain)
  · by_cases keyed : IsKeyed kind payload
    · exact endsAs_of_framed c (framed_keyed keyed)
    · exact ⟨.malformed, endsAs_of_not_framed c plain keyed⟩

/-- A text behind a tag is malformed unless it is the text of a payload. -/
theorem decode_not_spelled (c : Codec) (kind : Kind) {t : Text} (h : ¬∃ payload, Spells t payload) :
    ∃ cause, c.decode (Text.ofChars kind.wireTag ++ t) = .error (.malformed cause) := by
  obtain ⟨payload, read⟩ | ⟨cause, read⟩ := payloadOf_cases t
  · exact absurd ⟨payload, payloadOf_eq_ok_iff.mp read⟩ h
  · refine ⟨cause, ?_⟩
    rw [decode_append, read]
    rfl

theorem decode_eq_unknownKind {c : Codec} {w : Text}
    (h : ∀ kind : Kind, ¬Text.ofChars kind.wireTag <+: w) : c.decode w = .error .unknownKind := by
  have none : Kind.ofWire? w = none := by
    refine List.find?_eq_none.mpr fun kind _ => ?_
    rw [List.isPrefixOf_iff_prefix]
    exact h kind
  rw [decode, none]

/-- Behind the tag of a kind a text ends in exactly one of three ways. -/
theorem ending_append (c : Codec) (kind : Kind) (t : Text) :
    ∃ e, ending? (c.decode (Text.ofChars kind.wireTag ++ t)) = some e ∧ e ≠ .unknownKind ∧
      (e = .malformed ↔ IsMalformed c kind t) ∧ (e = .invalidSignature ↔ IsUnsigned c kind t) := by
  by_cases spelled : ∃ payload, Spells t payload
  · obtain ⟨payload, spells⟩ := spelled
    obtain ⟨e, ends⟩ := exists_endsAs c kind payload
    have ending := ends.ending
    rw [spell, Text.ofChars_append, ← spells] at ending
    exact ⟨e, ending, ends.known, ends.layout.trans (spells.isMalformed_iff c kind).symm,
      ends.signature.trans (spells.isUnsigned_iff c kind).symm⟩
  · obtain ⟨cause, reading⟩ := decode_not_spelled c kind spelled
    have signed : ¬IsUnsigned c kind t := by
      rintro ⟨payload, spells, -⟩
      exact spelled ⟨payload, spells⟩
    refine ⟨.malformed, ?_, by decide, ?_, ?_⟩
    · rw [reading]
      rfl
    · exact iff_of_true rfl (.inl spelled)
    · exact iff_of_false (by decide) signed

/-- Reading a token text ends in one of four ways, each told by the text. Whenever the parts of a
payload are looked at, they are there in full. -/
theorem decode_ending (c : Codec) (w : Text) :
    (∃ e, ending? (c.decode w) = some e) ∧
    (ending? (c.decode w) = some .unknownKind ↔
      ∀ kind : Kind, ¬Text.ofChars kind.wireTag <+: w) ∧
    ∀ (kind : Kind) (t : Text), w = Text.ofChars kind.wireTag ++ t →
      (ending? (c.decode w) = some .malformed ↔ IsMalformed c kind t) ∧
      (ending? (c.decode w) = some .invalidSignature ↔ IsUnsigned c kind t) ∧
      (ending? (c.decode w) = some .verified ↔ ¬IsMalformed c kind t ∧ ¬IsUnsigned c kind t) ∧
      ∀ payload v body, Spells t payload → c.split kind payload = .ok (v, body) →
        (idBytes body).length = 16 ∧ (expiryBytes kind body).length = expiryLength kind ∧
          (signatureBytes body).length = 20 := by
  refine ⟨?_, ⟨?_, ?_⟩, ?_⟩
  · by_cases tagged : ∃ kind : Kind, Text.ofChars kind.wireTag <+: w
    · obtain ⟨kind, t, rfl⟩ := tagged
      obtain ⟨e, ending, -⟩ := ending_append c kind t
      exact ⟨e, ending⟩
    · rw [decode_eq_unknownKind (not_exists.mp tagged)]
      exact ⟨.unknownKind, rfl⟩
  · rintro unknown kind ⟨t, rfl⟩
    obtain ⟨e, ending, known, -⟩ := ending_append c kind t
    exact known (Option.some.inj (ending.symm.trans unknown))
  · intro untagged
    rw [decode_eq_unknownKind untagged]
    rfl
  · rintro kind t rfl
    obtain ⟨e, ending, known, malformed, unsigned⟩ := ending_append c kind t
    rw [ending, ← malformed, ← unsigned]
    refine ⟨by cases e <;> simp, by cases e <;> simp, by cases e <;> simp_all, ?_⟩
    rintro payload v body - parts
    have total := (split_eq_ok_iff.mp parts).1.2
    exact ⟨length_idBytes total, length_expiryBytes total, length_signatureBytes total⟩

/-- A codec that refuses the first format refuses a text of that length whatever its bytes are, and
without the identifier being looked at. -/
theorem decode_ending_refused :
    let c : Codec := ⟨"s", by decide, .keyed, false, .standard⟩
    let payload : Bytes := List.replicate 36 0
    ¬TokenId.Readable (idBytes payload) ∧
      ending? (c.decode (spell .email payload)) = some .invalidSignature := by
  intro c payload
  have unreadable : ¬TokenId.Readable (idBytes payload) := by
    rintro ⟨_, layout, _⟩
    simp [idBytes, payload] at layout
  refine ⟨unreadable, ?_⟩
  exact (((decode_ending c (spell .email payload)).2.2 .email
    (Text.ofChars (Base64Url.encode payload)) (Text.ofChars_append ..)).2.1).mpr
    ⟨payload, rfl, .inl ⟨rfl, by decide⟩⟩

end BearerToken.Codec

import Mathlib
import BearerToken.Proofs.Codec.Ending
import BearerToken.Proofs.Codec.RoundTrip

/-!
# Moving to the second format

A codec has two switches for the move from the first format to the second: which format it writes,
and whether it still reads the first one. Reading does not look at the former. The latter is looked
at in one place, where a payload has the length of the first format; so two codecs that differ in it
part at the texts of such payloads and nowhere else, whatever the bytes in them are.
-/

namespace BearerToken.Codec

/-- The text of a payload that has the length of the first format. Nothing is said about its bytes:
the identifier may be unreadable, or start with the marker of the second format. -/
def IsLegacy (w : Text) : Prop := ∃ kind payload, w = spell kind payload ∧ IsPlain kind payload

theorem SharesSecret.verify_eq {c c' : Codec} (h : SharesSecret c c') (kind : Kind)
    (v : SignatureVersion) (body : Bytes) : c'.verify kind v body = c.verify kind v body := by
  simp only [verify, h.sign_eq]

/-- Two codecs with one secret read a text alike if they take it for the same format. -/
theorem SharesSecret.decode_eq {c c' : Codec} (h : SharesSecret c c') {w : Text}
    (same : ∀ kind payload, w = spell kind payload →
      c'.split kind payload = c.split kind payload) : c'.decode w = c.decode w := by
  cases tagged : Kind.ofWire? w with
  | none => rw [decode, decode, tagged]
  | some kind =>
      have parts := Kind.eq_append_of_ofWire? tagged
      obtain ⟨payload, read⟩ | ⟨cause, read⟩ := payloadOf_cases (w.drop 4)
      · have spelled : w = spell kind payload := by
          rw [spell, Text.ofChars_append, ← payloadOf_eq_ok_iff.mp read, ← parts]
        have split := same kind payload spelled
        rw [spelled, decode_spell, decode_spell, split]
        simp only [h.verify_eq]
      · rw [parts, decode_append, decode_append, read]
        rfl

/-- The format of a payload is told by its own bytes, and by the switch if it has the length of the
first format. -/
theorem split_eq {c c' : Codec} {kind : Kind} {payload : Bytes}
    (switch : IsPlain kind payload → c'.acceptLegacy = c.acceptLegacy) :
    c'.split kind payload = c.split kind payload := by
  by_cases plain : payload.length = kind.legacyLength
  · rw [split_plain c' plain, split_plain c plain, switch plain]
  · rw [split, split, if_neg plain, if_neg plain]

section Switch

variable {c : Codec} {kind : Kind} {payload : Bytes}

theorem decode_plain_refused (refuses : c.acceptLegacy = false) (plain : IsPlain kind payload) :
    c.decode (spell kind payload) = .error .legacyRefused := by
  rw [decode_spell, split_plain c plain, refuses]
  rfl

theorem decode_plain_accepted (accepts : c.acceptLegacy = true) (plain : IsPlain kind payload) :
    c.decode (spell kind payload) = c.verify kind .plain payload :=
  decode_framed (framed_of_isPlain plain) fun _ => accepts

end Switch

/-- The bytes are found in the first format or amiss, never refused for their format. -/
theorem verify_ne_legacyRefused (c : Codec) {kind : Kind} {v : SignatureVersion} {body : Bytes}
    (length : body.length = kind.legacyLength) :
    c.verify kind v body ≠ .error .legacyRefused := by
  by_cases identified : ∃ id : TokenId, id.bytes = idBytes body
  · obtain ⟨id, held⟩ := identified
    rw [verify_of_id length held]
    split <;> nofun
  · obtain ⟨cause, refused⟩ := verify_of_no_id kind identified c v
    rw [refused]
    nofun

theorem version_of_verify {c : Codec} {kind : Kind} {v : SignatureVersion} {body : Bytes}
    {d : Decoded} (length : body.length = kind.legacyLength) (h : c.verify kind v body = .ok d) :
    d.version = v := by
  obtain ⟨id, -, -, rfl⟩ := (verify_eq_ok_iff length).mp h
  rfl

/-- What is read in the first format has its length, so a text of another length that is accepted is
in the second format. -/
theorem version_of_not_legacy {c : Codec} {w : Text} {d : Decoded} (h : c.decode w = .ok d)
    (other : ¬IsLegacy w) : d.version = .keyed := by
  obtain ⟨payload, body, verified⟩ := verified_of_decode h
  cases version : d.version with
  | keyed => rfl
  | plain =>
      have plain : IsPlain d.kind payload := (isPlain_iff verified.framed).mpr version
      exact absurd ⟨d.kind, payload, verified.spelled, plain⟩ other

/-- The format that a codec writes has no part in what it reads. And a codec that refuses the first
format reads what the one that accepts it reads in the second; the two differ exactly at the texts
of payloads with the length of the first format, where the refusal says so and leaves open whether
the token would have been sound. -/
theorem decode_migration (c : Codec) (w : Text) :
    (∀ v, ({ c with version := v } : Codec).decode w = c.decode w) ∧
    ∀ v v', let refusing : Codec := { c with version := v, acceptLegacy := false }
      let accepting : Codec := { c with version := v', acceptLegacy := true }
      (∀ d, refusing.decode w = .ok d ↔ accepting.decode w = .ok d ∧ d.version = .keyed) ∧
      (refusing.decode w ≠ accepting.decode w ↔ IsLegacy w) ∧
      (IsLegacy w → refusing.decode w = .error .legacyRefused) := by
  refine ⟨fun v => SharesSecret.decode_eq ⟨rfl, rfl⟩ fun _ _ _ => split_eq fun _ => rfl, ?_⟩
  intro v v' refusing accepting
  have shares : SharesSecret accepting refusing := ⟨rfl, rfl⟩
  by_cases legacy : IsLegacy w
  · obtain ⟨kind, payload, rfl, plain⟩ := id legacy
    have refused : refusing.decode (spell kind payload) = .error .legacyRefused :=
      decode_plain_refused rfl plain
    have reading : accepting.decode (spell kind payload) = accepting.verify kind .plain payload :=
      decode_plain_accepted rfl plain
    rw [refused, reading]
    refine ⟨fun d => ⟨nofun, ?_⟩, ?_, fun _ => rfl⟩
    · rintro ⟨accepted, keyed⟩
      cases keyed.symm.trans (version_of_verify plain accepted)
    · exact iff_of_true (verify_ne_legacyRefused accepting plain).symm legacy
  · have same : refusing.decode w = accepting.decode w :=
      shares.decode_eq fun kind payload spelled =>
        split_eq fun plain => absurd ⟨kind, payload, spelled, plain⟩ legacy
    rw [same]
    refine ⟨fun d => ⟨fun accepted => ⟨accepted, ?_⟩, And.left⟩, ?_, fun h => absurd h legacy⟩
    · exact version_of_not_legacy accepted legacy
    · exact iff_of_false (fun differ => differ rfl) legacy

end BearerToken.Codec

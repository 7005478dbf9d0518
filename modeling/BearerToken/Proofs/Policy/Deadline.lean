import Mathlib
import BearerToken.Policy
import BearerToken.Proofs.Codec.RoundTrip

/-!
# The deadline of a token under two policies

The policy that checks a token need not be the one that it was issued under. What counts of the
older policy is the expiry in the text, where there is one; the lifetime is taken from the policy in
force. So a check passes up to one instant, the deadline, and never after it: a lifetime that is
shortened retires the tokens that are out, and one that is lengthened does not revive those whose
text says when they end.
-/

namespace BearerToken.Policy

/-- The last instant at which a token passes that was issued under one policy and is checked under
another. -/
def deadline (issued checked : Policy) (kind : Kind) (id : TokenId) : Int :=
  match kind with
  | .access | .refresh => id.timestampMs + min (issued.ttlFor kind) (checked.ttlFor kind)
  | .offline | .email => id.timestampMs + checked.ttlFor kind

theorem le_deadline_iff {issued checked : Policy} {kind : Kind} {id : TokenId} {nowMs : Int} :
    nowMs ≤ deadline issued checked kind id ↔
      nowMs ≤ id.timestampMs + checked.ttlFor kind ∧
        (kind.embedsExpiry → nowMs ≤ id.timestampMs + issued.ttlFor kind) := by
  cases kind with
  | access | refresh =>
      simp only [deadline, Kind.embedsExpiry, true_implies]
      omega
  | offline | email => simp [deadline, Kind.embedsExpiry]

/-- A text with an embedded expiry is checked against that expiry, and any text against the
lifetime. -/
theorem checkFields_embedded_iff {p : Policy} {kind : Kind} {id : TokenId} {expires nowMs : Int} :
    p.checkFields kind id (Codec.embedded kind expires) nowMs = .ok () ↔
      nowMs ≤ id.timestampMs + p.ttlFor kind ∧ (kind.embedsExpiry → nowMs ≤ expires) := by
  rw [checkFields_eq_ok_iff]
  cases embeds : kind.embedsExpiry <;> simp [Codec.embedded, embeds]

/-- What is encoded with the lifetime of one policy is decoded, and passes another policy up to the
deadline of the two. -/
theorem check_encoded_iff_le_deadline {c : Codec} (accepts : c.version = .plain → c.acceptLegacy)
    (kind : Kind) (id : TokenId) (ttls ttls' : Kind → Option Int)
    (retentionMs retentionMs' : Option Int) :
    let p := withOverrides ttls retentionMs
    let q := withOverrides ttls' retentionMs'
    ∀ wire, c.encode kind id (p.ttlFor kind) = .ok wire →
      ∃ d, c.decode (Text.ofString wire) = .ok d ∧
        ∀ nowMs, (q.check d nowMs = .ok () ↔ nowMs ≤ deadline p q kind id) ∧
          (q.isValid d.kind d.id d.expiresAt nowMs = true ↔ nowMs ≤ deadline p q kind id) := by
  intro p q wire encoded
  obtain ⟨fits, spelled⟩ := Codec.fits_of_encode encoded
  have decoded := Codec.decode_payload ⟨rfl, rfl⟩ fits id accepts
  rw [← spelled] at decoded
  refine ⟨_, decoded, fun nowMs => ?_⟩
  have passes : q.checkFields kind id (Codec.embedded kind (id.timestampMs + p.ttlFor kind)) nowMs =
      .ok () ↔ nowMs ≤ deadline p q kind id := by
    rw [checkFields_embedded_iff, le_deadline_iff]
  exact ⟨passes, isValid_eq_true_iff.trans passes⟩

/-- The first instant of the Gregorian calendar, long before epoch time. A lifetime of two seconds
is shortened by one, or lengthened by one, after the token was issued. -/
theorem check_encoded_iff_le_deadline_gregorian :
    let c : Codec := ⟨"s", by decide, .plain, true, .standard⟩
    let id : TokenId := ⟨⟨0x00000000000010008000000000000000, by decide⟩, by decide⟩
    let ttls (refresh : Int) : Kind → Option Int :=
      fun kind => if kind = .refresh then some refresh else some 0
    let p := withOverrides (ttls 2000) (some (-1))
    let shorter := withOverrides (ttls 1000) none
    let longer := withOverrides (ttls 3000) none
    (c.version = .plain → c.acceptLegacy) ∧ id.timestampMs = -12219292800000 ∧
      ∃ wire, c.encode .refresh id (p.ttlFor .refresh) = .ok wire ∧
        ∃ d, c.decode (Text.ofString wire) = .ok d ∧
          shorter.check d (-12219292799000) = .ok () ∧
          shorter.check d (-12219292798999) ≠ .ok () ∧
          longer.check d (-12219292798000) = .ok () ∧
          longer.check d (-12219292797999) ≠ .ok () := by
  intro c id ttls p shorter longer
  have accepts : c.version = .plain → c.acceptLegacy := fun _ => rfl
  have time : id.timestampMs = -12219292800000 := by decide +kernel
  have fits : Codec.Fits .refresh (id.timestampMs + p.ttlFor .refresh) := by
    intro _
    rw [time]
    decide
  obtain ⟨wire, encoded, -⟩ := Codec.encode_of_fits (c := c) fits
  obtain ⟨d, decoded, shortened⟩ := check_encoded_iff_le_deadline accepts .refresh id
    (ttls 2000) (ttls 1000) (some (-1)) none wire encoded
  obtain ⟨d', decoded', lengthened⟩ := check_encoded_iff_le_deadline accepts .refresh id
    (ttls 2000) (ttls 3000) (some (-1)) none wire encoded
  obtain rfl : d = d' := Except.ok.inj (decoded.symm.trans decoded')
  refine ⟨accepts, time, wire, encoded, d, decoded, (shortened _).1.mpr ?_,
    (shortened _).1.not.mpr ?_, (lengthened _).1.mpr ?_, (lengthened _).1.not.mpr ?_⟩
  all_goals
    simp only [deadline, time]
    decide

end BearerToken.Policy

import Mathlib
import BearerToken.Proofs.Codec.RoundTrip
import BearerToken.Proofs.TokenId.Ticks

/-!
# When an expiry does not fit

A token text is refused only where the kind embeds an expiry and the sum of creation time and
lifetime has no place in 64 bits. The times of identifiers span little of that range, so no lifetime
overflows but one of hundreds of millions of years, or a negative one of that size.
-/

namespace BearerToken.Codec

/-- A text is refused exactly where the expiry does not fit. -/
theorem exists_error_iff_not_fits {c : Codec} {kind : Kind} {id : TokenId} {ttlMs : Int} :
    (∃ overflow, c.encode kind id ttlMs = .error overflow) ↔
      ¬Fits kind (id.timestampMs + ttlMs) := by
  constructor
  · rintro ⟨overflow, refused⟩ fits
    obtain ⟨wire, encoded, -⟩ := encode_of_fits (c := c) fits
    rw [refused] at encoded
    cases encoded
  · intro outside
    cases encoded : c.encode kind id ttlMs with
    | error overflow => exact ⟨overflow, rfl⟩
    | ok wire => exact absurd (fits_of_encode encoded).1 outside

/-- A lifetime that leaves room for the last time of an identifier fits with every identifier. -/
theorem fits_of_le {ttlMs : Int} (nonneg : 0 ≤ ttlMs) (bounded : ttlMs ≤ 2 ^ 63 - 2 ^ 48)
    (kind : Kind) (id : TokenId) : Fits kind (id.timestampMs + ttlMs) := by
  obtain ⟨low, high⟩ := TokenId.timestampMs_bounds id
  intro _
  constructor <;> omega

/-- The times of identifiers, those of the first version by their ticks, and with them the lifetimes
that overflow. -/
theorem overflow_iff_of_time_range :
    (∀ id : TokenId, -12219292800000 ≤ id.timestampMs ∧ id.timestampMs ≤ 2 ^ 48 - 1) ∧
    (∀ id : TokenId, id.uuid.version? = some 1 ↔
      ∃ ticks clock node, id = .ofTicks ticks clock node) ∧
    (∀ ticks clock node, (TokenId.ofTicks ticks clock node).uuid.ticks = ticks ∧
      (∀ m : Int, (TokenId.ofTicks ticks clock node).timestampMs = m ↔
        10000 * m ≤ (ticks : Int) - 0x01b21dd213814000 ∧
          (ticks : Int) - 0x01b21dd213814000 < 10000 * (m + 1)) ∧
      ∀ ticks' clock' node', ticks ≤ ticks' →
        (TokenId.ofTicks ticks clock node).timestampMs ≤
          (TokenId.ofTicks ticks' clock' node').timestampMs) ∧
    ∀ (c : Codec) (kind : Kind) (id : TokenId) (ttlMs : Int),
      ((∃ overflow, c.encode kind id ttlMs = .error overflow) ↔
        kind.embedsExpiry ∧
          ¬(-2 ^ 63 ≤ id.timestampMs + ttlMs ∧ id.timestampMs + ttlMs < 2 ^ 63)) ∧
      (0 ≤ ttlMs → ttlMs ≤ 2 ^ 63 - 2 ^ 48 → ∃ wire, c.encode kind id ttlMs = .ok wire) := by
  refine ⟨fun id => ?_, fun id => TokenId.version?_eq_one_iff, fun ticks clock node => ?_,
    fun c kind id ttlMs => ⟨?_, fun nonneg bounded => ?_⟩⟩
  · obtain ⟨low, high⟩ := TokenId.timestampMs_bounds id
    exact ⟨low, Int.le_sub_one_of_lt high⟩
  · refine ⟨TokenId.ticks_ofTicks .., fun m => ?_, fun ticks' clock' node' later =>
      TokenId.timestampMs_ofTicks_mono clock clock' node node' later⟩
    rw [TokenId.timestampMs_ofTicks, TokenId.gregorianOffset]
    omega
  · rw [exists_error_iff_not_fits, Fits, Classical.not_imp]
  · obtain ⟨wire, encoded, -⟩ := encode_of_fits (c := c) (fits_of_le nonneg bounded kind id)
    exact ⟨wire, encoded⟩

/-- The first tick of the calendar and the last tick that has a place; and the longest lifetime that
never overflows, with the last time of an identifier, where one millisecond more does. -/
theorem overflow_iff_of_time_range_ends :
    let c : Codec := ⟨"s", by decide, .keyed, true, .standard⟩
    let first := TokenId.ofTicks 0 (2 ^ 14 - 1) (2 ^ 48 - 1)
    let last := TokenId.ofTicks (2 ^ 60 - 1) 0 0
    let id := TokenId.generate (-1) ⟨0, 0⟩
    first.timestampMs = -12219292800000 ∧ last.timestampMs = 103072857660684 ∧
      (0 : Fin (2 ^ 60)) ≤ 2 ^ 60 - 1 ∧ first.timestampMs ≤ last.timestampMs ∧
      (0 : Int) ≤ 2 ^ 63 - 2 ^ 48 ∧ (2 ^ 63 - 2 ^ 48 : Int) ≤ 2 ^ 63 - 2 ^ 48 ∧
      (∃ wire, c.encode .access id (2 ^ 63 - 2 ^ 48) = .ok wire) ∧
      ∃ overflow, c.encode .access id (2 ^ 63 - 2 ^ 48 + 1) = .error overflow := by
  intro c first last id
  obtain ⟨-, -, counts, writes⟩ := overflow_iff_of_time_range
  have ordered : (0 : Fin (2 ^ 60)) ≤ 2 ^ 60 - 1 := by decide
  have time : id.timestampMs = 2 ^ 48 - 1 := TokenId.timestampMs_generate_mod (-1) ⟨0, 0⟩
  refine ⟨((counts _ _ _).2.1 _).mpr (by decide), ((counts _ _ _).2.1 _).mpr (by decide), ordered,
    (counts _ _ _).2.2 _ _ _ ordered, by decide, le_refl _,
    (writes c .access id _).2 (by decide) (le_refl _), (writes c .access id _).1.mpr ⟨rfl, ?_⟩⟩
  rw [time]
  decide

end BearerToken.Codec

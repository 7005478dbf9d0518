import Mathlib
import BearerToken.TokenId

/-!
# The time of an identifier

A new identifier is of version seven and carries the low 48 bits of the time at which it was made.
The time of any identifier lies between the start of the Gregorian calendar and the last one that 48
bits can hold.
-/

namespace BearerToken.TokenId

theorem version?_generate (nowMs : Int) (e : Entropy) :
    (generate nowMs e).uuid.version? = some 7 := by
  have standard : rawOf nowMs e / 2 ^ 62 % 4 = 2 := by
    unfold rawOf
    omega
  have version : rawOf nowMs e / 2 ^ 76 % 16 = 7 := by
    unfold rawOf
    omega
  simp [generate, Uuid.version?, Uuid.isStandard, standard, version]

theorem timestampMs_generate_mod (nowMs : Int) (e : Entropy) :
    (generate nowMs e).timestampMs = nowMs % 2 ^ 48 := by
  have time : (rawOf nowMs e / 2 ^ 80 : Nat) = (nowMs % 2 ^ 48).toNat := by
    unfold rawOf
    omega
  rw [timestampMs, if_pos (version?_generate nowMs e)]
  change ((rawOf nowMs e / 2 ^ 80 : Nat) : Int) = nowMs % 2 ^ 48
  rw [time]
  omega

theorem timestampMs_generate {nowMs : Int} (nonneg : 0 ≤ nowMs) (bounded : nowMs < 2 ^ 48)
    (e : Entropy) : (generate nowMs e).timestampMs = nowMs := by
  rw [timestampMs_generate_mod]
  exact Int.emod_eq_of_lt nonneg bounded

/-- The ticks of the first version reach less far than the 48 bits of the seventh. -/
theorem timestampMs_bounds (id : TokenId) :
    -12219292800000 ≤ id.timestampMs ∧ id.timestampMs < 2 ^ 48 := by
  have whole := id.uuid.isLt
  rw [timestampMs]
  split
  · omega
  · have ticks : id.uuid.ticks < 2 ^ 60 := by
      rw [Uuid.ticks]
      omega
    rw [gregorianOffset]
    omega

end BearerToken.TokenId

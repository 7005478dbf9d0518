import Mathlib
import BearerToken.Proofs.TokenId.Time

/-!
# Identifiers that count ticks

An identifier of the first version holds a count of ticks of 60 bits in three parts, the lowest one
in front, and behind it the sequence number of a clock and the number of a node. Its time is the
count, taken from the start of epoch time on and cut to whole milliseconds; so it says nothing of
clock and node, and more ticks are never an earlier time.
-/

namespace BearerToken

theorem Uuid.version?_eq_some_iff {u : Uuid} {n : Nat} :
    u.version? = some n ↔ u.val / 2 ^ 62 % 4 = 2 ∧ u.val / 2 ^ 76 % 16 = n := by
  by_cases standard : u.val / 2 ^ 62 % 4 = 2 <;> simp [version?, isStandard, standard]

namespace TokenId

/-! ### The parts of a count

The count stands in the identifier with its parts in another order, so that each of the two numbers
is described by what its parts are.
-/

section Parts

variable {low middle : Nat}

theorem parts_of_count (high : Nat) (low_fits : low < 2 ^ 32) (middle_fits : middle < 2 ^ 16) :
    (high * 2 ^ 48 + middle * 2 ^ 32 + low) % 2 ^ 32 = low ∧
      (high * 2 ^ 48 + middle * 2 ^ 32 + low) / 2 ^ 32 % 2 ^ 16 = middle ∧
      (high * 2 ^ 48 + middle * 2 ^ 32 + low) / 2 ^ 48 = high := by
  omega

/-- The number of an identifier that counts ticks: the three parts of the count with the version in
front of the high one, the layout bits, the clock and the node. -/
def partsRaw (low middle high clock node : Nat) : Nat :=
  low * 2 ^ 96 + middle * 2 ^ 80 + 1 * 2 ^ 76 + high * 2 ^ 64 + 2 * 2 ^ 62 + clock * 2 ^ 48 + node

theorem parts_of_partsRaw {high clock node : Nat} (middle_fits : middle < 2 ^ 16)
    (high_fits : high < 2 ^ 12) (clock_fits : clock < 2 ^ 14) (node_fits : node < 2 ^ 48) :
    partsRaw low middle high clock node / 2 ^ 96 = low ∧
      partsRaw low middle high clock node / 2 ^ 80 % 2 ^ 16 = middle ∧
      partsRaw low middle high clock node / 2 ^ 64 % 2 ^ 12 = high ∧
      partsRaw low middle high clock node / 2 ^ 62 % 4 = 2 ∧
      partsRaw low middle high clock node / 2 ^ 76 % 16 = 1 := by
  unfold partsRaw
  omega

/-- A number with the version and the layout bits of the first version is its parts. -/
theorem partsRaw_of_parts {n : Nat} (layout : n / 2 ^ 62 % 4 = 2) (version : n / 2 ^ 76 % 16 = 1) :
    partsRaw (n / 2 ^ 96) (n / 2 ^ 80 % 2 ^ 16) (n / 2 ^ 64 % 2 ^ 12) (n / 2 ^ 48 % 2 ^ 14)
      (n % 2 ^ 48) = n := by
  -- Each part is cut off from what stands in front of it, from the last one on.
  have clock : n / 2 ^ 48 / 2 ^ 14 = n / 2 ^ 62 := by omega
  have layoutBits : n / 2 ^ 62 / 4 = n / 2 ^ 64 := by omega
  have high : n / 2 ^ 64 / 2 ^ 12 = n / 2 ^ 76 := by omega
  have versionBits : n / 2 ^ 76 / 16 = n / 2 ^ 80 := by omega
  have middle : n / 2 ^ 80 / 2 ^ 16 = n / 2 ^ 96 := by omega
  unfold partsRaw
  omega

end Parts

def tickRaw (ticks : Fin (2 ^ 60)) (clock : Fin (2 ^ 14)) (node : Fin (2 ^ 48)) : Nat :=
  partsRaw (ticks.val % 2 ^ 32) (ticks.val / 2 ^ 32 % 2 ^ 16) (ticks.val / 2 ^ 48) clock node

section Fields

variable (ticks : Fin (2 ^ 60)) (clock : Fin (2 ^ 14)) (node : Fin (2 ^ 48))

theorem parts_of_tickRaw :
    tickRaw ticks clock node / 2 ^ 96 = ticks.val % 2 ^ 32 ∧
      tickRaw ticks clock node / 2 ^ 80 % 2 ^ 16 = ticks.val / 2 ^ 32 % 2 ^ 16 ∧
      tickRaw ticks clock node / 2 ^ 64 % 2 ^ 12 = ticks.val / 2 ^ 48 ∧
      tickRaw ticks clock node / 2 ^ 62 % 4 = 2 ∧ tickRaw ticks clock node / 2 ^ 76 % 16 = 1 := by
  have fits := ticks.isLt
  exact parts_of_partsRaw (Nat.mod_lt _ (by decide)) (by omega) clock.isLt node.isLt

theorem tickRaw_lt : tickRaw ticks clock node < 2 ^ 128 := by
  obtain ⟨low, -⟩ := parts_of_tickRaw ticks clock node
  omega

/-- The identifier of a count of ticks, made on a node with some sequence number of its clock. -/
def ofTicks : TokenId where
  uuid := ⟨tickRaw ticks clock node, tickRaw_lt ticks clock node⟩
  timed := by
    obtain ⟨-, -, -, layout, version⟩ := parts_of_tickRaw ticks clock node
    exact .inl (Uuid.version?_eq_some_iff.mpr ⟨layout, version⟩)

theorem version?_ofTicks : (ofTicks ticks clock node).uuid.version? = some 1 := by
  obtain ⟨-, -, -, layout, version⟩ := parts_of_tickRaw ticks clock node
  exact Uuid.version?_eq_some_iff.mpr ⟨layout, version⟩

@[simp] theorem ticks_ofTicks : (ofTicks ticks clock node).uuid.ticks = ticks := by
  obtain ⟨low, middle, high, -⟩ := parts_of_tickRaw ticks clock node
  change tickRaw ticks clock node / 2 ^ 64 % 2 ^ 12 * 2 ^ 48 +
    tickRaw ticks clock node / 2 ^ 80 % 2 ^ 16 * 2 ^ 32 + tickRaw ticks clock node / 2 ^ 96 = ticks
  rw [low, middle, high]
  omega

end Fields

/-- Every identifier of the first version is made of ticks, a clock and a node. -/
theorem exists_ofTicks {id : TokenId} (first : id.uuid.version? = some 1) :
    ∃ ticks clock node, id = ofTicks ticks clock node := by
  obtain ⟨layout, version⟩ := Uuid.version?_eq_some_iff.mp first
  have whole := id.uuid.isLt
  have count : id.uuid.ticks < 2 ^ 60 := by
    rw [Uuid.ticks]
    omega
  obtain ⟨low, middle, high⟩ := parts_of_count (id.uuid.val / 2 ^ 64 % 2 ^ 12)
    (by omega : id.uuid.val / 2 ^ 96 < 2 ^ 32) (Nat.mod_lt (id.uuid.val / 2 ^ 80) (by decide))
  refine ⟨⟨id.uuid.ticks, count⟩, ⟨id.uuid.val / 2 ^ 48 % 2 ^ 14, by omega⟩,
    ⟨id.uuid.val % 2 ^ 48, by omega⟩, ext (Uuid.ext ?_)⟩
  change id.uuid.val = partsRaw (id.uuid.ticks % 2 ^ 32) (id.uuid.ticks / 2 ^ 32 % 2 ^ 16)
    (id.uuid.ticks / 2 ^ 48) (id.uuid.val / 2 ^ 48 % 2 ^ 14) (id.uuid.val % 2 ^ 48)
  rw [Uuid.ticks, low, middle, high, partsRaw_of_parts layout version]

theorem version?_eq_one_iff {id : TokenId} :
    id.uuid.version? = some 1 ↔ ∃ ticks clock node, id = ofTicks ticks clock node := by
  refine ⟨exists_ofTicks, ?_⟩
  rintro ⟨ticks, clock, node, rfl⟩
  exact version?_ofTicks ticks clock node

/-- The time is in whole milliseconds, and the ticks beyond them are dropped, also before epoch
time. -/
theorem timestampMs_ofTicks (ticks : Fin (2 ^ 60)) (clock : Fin (2 ^ 14)) (node : Fin (2 ^ 48)) :
    (ofTicks ticks clock node).timestampMs = ((ticks : Int) - gregorianOffset) / 10000 := by
  rw [timestampMs, version?_ofTicks, if_neg (by decide), ticks_ofTicks]

theorem timestampMs_ofTicks_mono {ticks ticks' : Fin (2 ^ 60)} (clock clock' : Fin (2 ^ 14))
    (node node' : Fin (2 ^ 48)) (later : ticks ≤ ticks') :
    (ofTicks ticks clock node).timestampMs ≤ (ofTicks ticks' clock' node').timestampMs := by
  rw [timestampMs_ofTicks, timestampMs_ofTicks]
  apply Int.ediv_le_ediv (by decide)
  exact Int.sub_le_sub_right (Int.ofNat_le.mpr later) _

end TokenId

end BearerToken

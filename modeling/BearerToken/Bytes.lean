import BearerToken.Power

/-!
# Byte strings

Bytes are lists, so that layouts are concatenations and lengths add up. Numbers are laid out with a
fixed count of bytes, most significant first, and text as UTF-8.
-/

namespace BearerToken

abbrev Bytes := List UInt8

namespace Bytes

/-- The `count` low bytes of a number, most significant first. -/
def ofNat : (count : Nat) → (n : Nat) → Bytes
  | 0, _ => []
  | count + 1, n => ofNat count (n / 256) ++ [n.toUInt8]

/-- The number whose base-256 digits are the bytes, most significant first. -/
def toNat (bs : Bytes) : Nat := bs.foldl (fun acc b => acc * 256 + b.toNat) 0

@[simp] theorem length_ofNat (count n : Nat) : (ofNat count n).length = count := by
  induction count generalizing n with
  | zero => rfl
  | succ count ih => simp [ofNat, ih]

theorem toNat_append_singleton (bs : Bytes) (b : UInt8) :
    toNat (bs ++ [b]) = toNat bs * 256 + b.toNat := by
  simp [toNat]

theorem toNat_ofNat (count n : Nat) : toNat (ofNat count n) = n % Nat.pow 256 count := by
  rw [Nat.pow_eq]
  induction count generalizing n with
  | zero => simp [ofNat, toNat, Nat.mod_one]
  | succ count ih =>
    rw [ofNat, toNat_append_singleton, ih, Nat.pow_succ', Nat.mod_mul]
    simp only [Nat.toUInt8, UInt8.toNat_ofNat']
    omega

/-- The 64-bit two's complement of an integer. -/
def ofInt64 (n : Int) : Bytes := ofNat 8 (n % 2 ^ 64).toNat

/-- The integer whose two's complement the bytes are. -/
def toInt64 (bs : Bytes) : Int :=
  let n := toNat bs
  if n < 2 ^ 63 then n else (n : Int) - 2 ^ 64

theorem toInt64_ofInt64 {n : Int} (low : -2 ^ 63 ≤ n) (high : n < 2 ^ 63) :
    toInt64 (ofInt64 n) = n := by
  unfold toInt64 ofInt64
  rw [toNat_ofNat, Nat.pow_eq]
  simp only
  split <;> omega

/-- The UTF-8 form of a text. -/
def ofString (s : String) : Bytes := s.toUTF8.data.toList

/-- The text with this UTF-8 form, if the bytes are one. -/
def toString? (bs : Bytes) : Option String := String.fromUTF8? ⟨bs.toArray⟩

end Bytes

end BearerToken

import BearerToken.Text

/-!
# 16-bit code units

JSON escapes name 16-bit units. A character beyond U+FFFF takes a pair of them, a high surrogate and
a low one; every other code point is one unit.
-/

namespace BearerToken.Text

/-- The units of a code point. -/
def units (c : CodePoint) : List Nat :=
  let n := c.toNat
  if n < 0x10000 then [n] else [0xd800 + (n - 0x10000) / 0x400, 0xdc00 + (n - 0x10000) % 0x400]

/-- The code point of a unit that stands alone. -/
def ofUnit (n : Nat) : CodePoint :=
  if h : 0xd800 ≤ n ∧ n < 0xe000 then .surrogate ⟨n - 0xd800, by omega⟩ else .char (Char.ofNat n)

/-- The character of two units that are a pair. -/
def ofPair? (high low : Nat) : Option Char :=
  if 0xd800 ≤ high && high < 0xdc00 && 0xdc00 ≤ low && low < 0xe000 then
    some (Char.ofNat (0x10000 + (high - 0xd800) * 0x400 + (low - 0xdc00)))
  else none

example : units '😀' = [0xd83d, 0xde00] ∧ ofPair? 0xd83d 0xde00 = some '😀' ∧
    ofPair? 0xd83d 0x41 = none := by
  decide +kernel

end BearerToken.Text

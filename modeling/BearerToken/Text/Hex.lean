/-!
# Fixed-width hexadecimal

Numbers written with a fixed count of lower-case hexadecimal digits, most significant first; what
does not fit in the count is cut off at the front. Identifiers, escapes and byte strings are all
written this way.
-/

namespace BearerToken.Text

/-- The digit for a value below sixteen. -/
def hexDigit (n : Nat) : Char :=
  if n < 10 then Char.ofNat ('0'.toNat + n) else Char.ofNat ('a'.toNat + (n - 10))

/-- The last `count` hexadecimal digits of `n`. -/
def hex : (count : Nat) → (n : Nat) → List Char
  | 0, _ => []
  | count + 1, n => hex count (n / 16) ++ [hexDigit (n % 16)]

@[simp] theorem length_hex (count n : Nat) : (hex count n).length = count := by
  induction count generalizing n with
  | zero => rfl
  | succ count ih => simp [hex, ih]

example : hex 4 0x2028 = "2028".toList := by decide

end BearerToken.Text

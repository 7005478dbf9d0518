import BearerToken.Numeral

/-!
# Binary floating-point numbers of 64 bits

A finite number is a mantissa below 2^53 times a power of two; the mantissa has its top bit set
unless the exponent is the least one, so every number has one representation. All arithmetic is
exact on ratios of naturals, followed by one rounding to the nearest representable number, a tie
going to the even mantissa.
-/

namespace BearerToken

namespace Binary64

def leastExponent : Int := -1074

def greatestExponent : Int := 971

/-- Whether a mantissa and an exponent are the representation of a number. -/
def IsCanonical (mantissa : Nat) (exponent : Int) : Prop :=
  mantissa < 2 ^ 53 ∧ leastExponent ≤ exponent ∧ exponent ≤ greatestExponent ∧
    (mantissa < 2 ^ 52 → exponent = leastExponent)

instance (mantissa : Nat) (exponent : Int) : Decidable (IsCanonical mantissa exponent) :=
  inferInstanceAs (Decidable (_ ∧ _))

end Binary64

/-- A 64-bit binary number; `finite negative m e` is `m * 2^e`, with a sign. -/
inductive Binary64 where
  | finite (negative : Bool) (mantissa : Nat) (exponent : Int)
      (canonical : Binary64.IsCanonical mantissa exponent)
  | infinite (negative : Bool)
  | nan
  deriving Repr, DecidableEq

instance : Inhabited Binary64 := ⟨.nan⟩

/-- The integer nearest to `num / den`, the even one of two. -/
def roundHalfEven (num den : Nat) : Nat :=
  let q := num / den
  let r := num % den
  if 2 * r < den then q
  else if 2 * r = den then q + q % 2
  else q + 1

namespace Binary64

def zero (negative : Bool) : Binary64 := .finite negative 0 leastExponent (by decide)

/-- The ratio `num / den` divided by `2^e`, as a ratio. -/
def scaled (num den : Nat) (e : Int) : Nat × Nat := timesPower 2 num den (-e)

/-- The exponent at which the ratio, with `num` and `den` positive, has a mantissa of 53 bits, or
the least exponent where that is higher. The two logarithms fix the exponent up to one. -/
def exponentFor (num den : Nat) : Int :=
  let low : Int := (num.log2 : Int) - den.log2 - 53
  let (n, d) := scaled num den low
  max leastExponent (if n / d < 2 ^ 53 then low else low + 1)

/-- A mantissa that rounding has carried to 2^53 moves to the next exponent, and what then has no
representation lies beyond the greatest exponent and is infinite. -/
def normalised (negative : Bool) (m : Nat) (e : Int) : Binary64 :=
  let (m, e) := if m = 2 ^ 53 then (2 ^ 52, e + 1) else (m, e)
  if canonical : IsCanonical m e then .finite negative m e canonical else .infinite negative

/-- The number nearest to `num / den`, with `den` positive. -/
def ofRatio (negative : Bool) (num den : Nat) : Binary64 :=
  if num = 0 then zero negative
  else
    let e := exponentFor num den
    let (n, d) := scaled num den e
    normalised negative (roundHalfEven n d) e

/-- The number nearest to the decimal `digits * 10^exponent`. A decimal far beyond the greatest or
below the least number is settled by where its first digit stands, so no huge power is computed. -/
def ofDecimal (negative : Bool) (digits : Nat) (exponent : Int) : Binary64 :=
  let front : Int := exponent + (Numeral.digits digits).length
  if digits = 0 || front < -330 then zero negative
  else if front > 330 then .infinite negative
  else
    let (num, den) := timesPower 10 digits 1 exponent
    ofRatio negative num den

/-- The ratio of a finite number's magnitude. -/
def ratio (mantissa : Nat) (exponent : Int) : Nat × Nat := timesPower 2 mantissa 1 exponent

example : ofRatio false 1 10 = .finite false 7205759403792794 (-56) (by decide) := by
  decide +kernel

end Binary64

end BearerToken

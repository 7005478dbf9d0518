import BearerToken.Binary64

/-!
# The shortest decimal of a number

A number is written with the fewest significant digits that read back as the same number, and of
the decimals with that many digits the nearest. For one digit, two, and so on up to seventeen, the
two neighbours of the number on that decimal grid are tried. If any decimal of the grid reads back,
so does one of these two, because the numbers that read back form an interval around the number.
-/

namespace BearerToken.Binary64

/-- The exponent `k` with `10^k ≤ num / den < 10^(k+1)`, for a positive ratio. The logarithms give
it up to one. -/
def decimalExponent (num den : Nat) : Int :=
  let guess : Int := (((num.log2 : Int) - den.log2) * 30103) / 100000
  let below (k : Int) : Bool :=
    let (n, d) := timesPower 10 num den (-k)
    n < d
  if below guess then guess - 1
  else if below (guess + 1) then guess
  else guess + 1

/-- The neighbours of `num / den` on the grid of multiples of `10^place`: the lower one, and whether
the ratio is nearer to it, an exact middle going to the even one. -/
def neighbour (num den : Nat) (place : Int) : Nat × Bool :=
  let (n, d) := timesPower 10 num den (-place)
  let low := n / d
  (low, roundHalfEven n d = low)

/-- Tries `count` significant digits, then one more, `fuel` times. -/
def searchDigits (target : Binary64) (num den : Nat) (top : Int) : (fuel count : Nat) → Nat × Int
  | 0, count => ((neighbour num den (top + 1 - count)).1, top + 1 - count)
  | fuel + 1, count =>
    let place := top + 1 - (count : Int)
    let (low, lowIsNearer) := neighbour num den place
    let reads (n : Nat) : Bool := ofDecimal false n place = target
    let (first, second) := if lowIsNearer then (low, low + 1) else (low + 1, low)
    if reads first then (first, place)
    else if reads second then (second, place)
    else searchDigits target num den top fuel (count + 1)

/-- The shortest decimal `digits * 10^place` of a positive finite number. -/
def shortest (mantissa : Nat) (exponent : Int) (canonical : IsCanonical mantissa exponent) :
    Nat × Int :=
  let (num, den) := ratio mantissa exponent
  searchDigits (.finite false mantissa exponent canonical) num den (decimalExponent num den) 17 1

end BearerToken.Binary64

import BearerToken.Binary64.Shortest

/-!
# Numbers with a set number of digits

A finite number, given by its mantissa and exponent, as a decimal with so many digits behind the
point, or with so many significant digits. The exact value is rounded once, and a value in the
middle of two decimals goes to the even one. A point with no digits behind it is left out, unless it
is asked for.
-/

namespace BearerToken.Binary64

/-- A run of digits with a point before the last `places` of them. -/
def pointed (keepPoint : Bool) (ds : List Char) (places : Nat) : List Char :=
  let whole := ds.length - places
  if places = 0 && !keepPoint then ds else ds.take whole ++ '.' :: ds.drop whole

/-- The decimal with `places` digits behind the point. -/
def fixed (keepPoint : Bool) (mantissa : Nat) (exponent : Int) (places : Nat) : List Char :=
  let (num, den) := ratio mantissa exponent
  let (n, d) := timesPower 10 num den places
  pointed keepPoint (Numeral.padded (places + 1) (roundHalfEven n d)) places

/-- The first `count` significant digits as a number, and the exponent of the first digit. Rounding
can carry into a digit more, which then is the first one. -/
def significant (mantissa : Nat) (exponent : Int) (count : Nat) : Nat × Int :=
  if mantissa = 0 then (0, 0)
  else
    let (num, den) := ratio mantissa exponent
    let top := decimalExponent num den
    let (scaledNum, scaledDen) := timesPower 10 num den (count - 1 - top)
    let n := roundHalfEven scaledNum scaledDen
    if n = Nat.pow 10 count then (Nat.pow 10 (count - 1), top + 1) else (n, top)

/-- The mark of an exponent, its sign, and at least two digits. -/
def exponentMark (top : Int) : List Char :=
  'e' :: (if top < 0 then '-' else '+') :: Numeral.padded 2 top.natAbs

/-- The decimal with one digit before the point, `places` behind it, and an exponent. -/
def scientific (keepPoint : Bool) (mantissa : Nat) (exponent : Int) (places : Nat) : List Char :=
  let (n, top) := significant mantissa exponent (places + 1)
  pointed keepPoint (Numeral.padded (places + 1) n) places ++ exponentMark top

/-- A decimal without the zeros at the end of its fraction, nor a point that then stands last. -/
def trimmed (cs : List Char) : List Char :=
  if cs.contains '.' then
    let kept := (cs.reverse.dropWhile (· = '0')).reverse
    if kept.getLast? = some '.' then kept.dropLast else kept
  else cs

/-- The decimal of `count` significant digits: with an exponent if the first digit stands below the
fourth place behind the point, or where the digits do not reach the point. The zeros at the end of
the fraction are kept or dropped along with the point. -/
def general (keepZeros : Bool) (mantissa : Nat) (exponent : Int) (count : Nat) : List Char :=
  let count := max count 1
  let (n, top) := significant mantissa exponent count
  let tidy (cs : List Char) : List Char := if keepZeros then cs else trimmed cs
  if -4 ≤ top && top < count then tidy (fixed keepZeros mantissa exponent (count - 1 - top).toNat)
  else tidy (pointed keepZeros (Numeral.padded count n) (count - 1)) ++ exponentMark top

example : fixed false 5 (-1) 0 = ['2'] ∧ scientific false 5 (-1) 2 = "2.50e+00".toList ∧
    general false 1 20 6 = "1.04858e+06".toList := by
  decide +kernel

end BearerToken.Binary64

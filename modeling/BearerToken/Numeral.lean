import BearerToken.Limits
import BearerToken.Power
import BearerToken.Text.Blank
import BearerToken.Text.Digit
import BearerToken.Text.Quoted

/-!
# Integers in text

The liberal notation in which settings, identifiers and persisted fields give integers: padding, a
sign, a base mark for base sixteen, and digits of any script with single underscores between them.
`read` accepts it and `write` gives the plain decimal form. The time to read decimal digits grows
faster than their count, so a numeral with too many of them is refused, unread, as soon as the run
of its digits is found in order; what stands behind the run does not matter then.
-/

namespace BearerToken

/-- Why a text gives no integer. -/
inductive NumeralError where
  | notNumeral
  /-- More digits than are read. -/
  | tooLong (digits : Nat)
  deriving Repr, DecidableEq

namespace Numeral

/-- The limit on digits; a base that is a power of two needs none. -/
def limit? [Limits] (base : Nat) : Option Nat := if base = 10 then Limits.digits else none

/-- Padding is blank, the four information separators excepted. -/
def isPadding (c : CodePoint) : Bool := Text.isBlank c && !(0x1c ≤ c.toNat && c.toNat ≤ 0x1f)

/-- A digit or an underscore. -/
def inRun (base : Nat) (c : CodePoint) : Bool := c = '_' || (Text.digit? base c).isSome

/-- Whether an underscore follows an underscore. -/
def hasDouble : Text → Bool
  | .char '_' :: .char '_' :: _ => true
  | _ :: rest => hasDouble rest
  | [] => false

/-- Whether a run starts and ends with a digit and holds single underscores only. -/
def isSpaced (run : Text) : Bool :=
  !run.isEmpty && run.head? ≠ some '_' && run.getLast? ≠ some '_' && !hasDouble run

/-- The number that digits denote, the most significant first. -/
def value (base : Nat) (digits : List Nat) : Nat := digits.foldl (fun acc d => acc * base + d) 0

/-- A numeral without a sign. -/
def readMagnitude [Limits] (base : Nat) (t : Text) : Except NumeralError Nat :=
  let run := t.takeWhile (inRun base)
  let digits := run.filterMap (Text.digit? base)
  if !isSpaced run then .error .notNumeral
  else if (limit? base).any (· < digits.length) then .error (.tooLong digits.length)
  else if run.length < t.length then .error .notNumeral
  else .ok (value base digits)

/-- In base sixteen a zero with an `x` after it is a mark in front of the digits, which one
underscore may follow. Any other zero is the first digit. -/
def readMarked [Limits] (base : Nat) : Text → Except NumeralError Nat
  | z :: x :: rest =>
    if base = 16 && (x = 'x' || x = 'X') && Text.decimalDigit? z = some 0 then
      match rest with
      | .char '_' :: rest => readMagnitude base rest
      | rest => readMagnitude base rest
    else readMagnitude base (z :: x :: rest)
  | t => readMagnitude base t

def readSigned [Limits] (base : Nat) : Text → Except NumeralError Int
  | .char '-' :: rest => (readMarked base rest).map fun n => -(n : Int)
  | .char '+' :: rest => (readMarked base rest).map Int.ofNat
  | t => (readMarked base t).map Int.ofNat

/-- The integer that a text denotes in a base. -/
def read [Limits] (base : Nat) (t : Text) : Except NumeralError Int :=
  readSigned base (t.trim isPadding)

/-- The run of ASCII digits in front of a text, and what follows. -/
def digitRun (t : Text) : Text × Text :=
  let isDigit (c : CodePoint) : Bool := '0'.toNat ≤ c.toNat && c.toNat ≤ '9'.toNat
  (t.takeWhile isDigit, t.dropWhile isDigit)

/-- The number that ASCII digits denote. -/
def ofDigits (ds : Text) : Nat := value 10 (ds.map fun c => c.toNat - '0'.toNat)

/-- The decimal digits of a number, without leading zeros. -/
def digits (n : Nat) : List Char :=
  if n < 10 then [Char.ofNat ('0'.toNat + n)]
  else digits (n / 10) ++ [Char.ofNat ('0'.toNat + n % 10)]

def chars : Int → List Char
  | .ofNat n => digits n
  | .negSucc n => '-' :: digits (n + 1)

/-- The plain decimal form. -/
def write (n : Int) : String := String.ofList (chars n)

/-- Whether an integer has no more digits than are written. -/
def isWritable [Limits] (n : Int) : Bool :=
  Limits.digits.all ((digits n.natAbs).length ≤ ·)

/-- A number in decimal, filled with zeros at the front up to a width. -/
def padded (width n : Nat) : List Char :=
  let ds := digits n
  List.replicate (width - ds.length) '0' ++ ds

example : (read 10 " +1_000 ").toOption = some 1000 ∧ (read 10 "1__0").toOption = none ∧
    (read 16 "-0x_fF").toOption = some (-255) := by
  decide +kernel

end Numeral

/-- What is said of the text that was to be read. It is shown quoted, cut after two hundred
characters. -/
def NumeralError.message [Limits] (base : Nat) (t : Text) : NumeralError → String
  | .notNumeral =>
    "invalid literal for int() with base " ++ Numeral.write base ++ ": " ++
      String.ofList ((Text.quotedChars t).take 200)
  | .tooLong digits =>
    "Exceeds the limit (" ++ Numeral.write (Limits.digits.getD 0) ++
      " digits) for integer string conversion: value has " ++ Numeral.write digits ++
      " digits; use sys.set_int_max_str_digits() to increase the limit"

end BearerToken

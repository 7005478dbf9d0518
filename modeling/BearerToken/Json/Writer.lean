import BearerToken.Binary64.Shortest
import BearerToken.Json.Value
import BearerToken.Text.Units

/-!
# Writing JSON

The canonical text of a value: no blanks, members ordered by key, and only printable ASCII, so that
equal values have equal texts. A value with too long an integer, or with too many containers inside
each other, has none. A binary number is written with its shortest decimal, in plain form
from 10^-4 up to 10^16 and with an exponent outside that range. `report` is the other layout, one
member to a line, for people to read.
-/

namespace BearerToken.Json

/-- The short escapes. -/
def shortEscapes : List (Char × Char) :=
  [('"', '"'), ('\\', '\\'), ('\n', 'n'), ('\r', 'r'), ('\t', 't'), ('\x08', 'b'), ('\x0c', 'f')]

/-- A code point outside printable ASCII: each of its units as an escape. -/
def writeUnits (c : CodePoint) : List Char :=
  (Text.units c).flatMap fun u => '\\' :: 'u' :: Text.hex 4 u

/-- One code point inside a string. -/
def writePoint : CodePoint → List Char
  | .char c =>
    match shortEscapes.lookup c with
    | some letter => ['\\', letter]
    | none => if ' ' ≤ c && c ≤ '~' then [c] else writeUnits c
  | c => writeUnits c

def writeText (t : Text) : List Char := '"' :: t.flatMap writePoint ++ ['"']

/-- Where a number's decimal is written without an exponent: the exponents of the first digit. -/
def plainRange : Int × Int := (-4, 15)

/-- The decimal of digits `ds` times `10^place`, with a point and a digit after it. -/
def plainDecimal (ds : List Char) (place : Int) : List Char :=
  match place with
  | .ofNat k => ds ++ List.replicate k '0' ++ ['.', '0']
  | .negSucc k =>
    let fraction := k + 1
    if fraction < ds.length then
      ds.take (ds.length - fraction) ++ '.' :: ds.drop (ds.length - fraction)
    else '0' :: '.' :: List.replicate (fraction - ds.length) '0' ++ ds

/-- One digit, the rest behind a point, and an exponent of at least two digits. -/
def exponentDecimal (ds : List Char) (top : Int) : List Char :=
  let fraction := match ds.drop 1 with
    | [] => []
    | rest => '.' :: rest
  ds.take 1 ++ fraction ++ 'e' :: (if top < 0 then '-' else '+') :: Numeral.padded 2 top.natAbs

/-- The shortest decimal of a positive number in one of its two layouts. -/
def positiveDecimal (mantissa : Nat) (exponent : Int)
    (canonical : Binary64.IsCanonical mantissa exponent) : List Char :=
  let (n, place) := Binary64.shortest mantissa exponent canonical
  let written := Numeral.digits n
  let ds := (written.reverse.dropWhile (· = '0')).reverse
  let place := place + (written.length - ds.length : Nat)
  let top := place + ds.length - 1
  if plainRange.1 ≤ top && top ≤ plainRange.2 then plainDecimal ds place
  else exponentDecimal ds top

def writeNumber : Binary64 → List Char
  | .nan => "NaN".toList
  | .infinite false => "Infinity".toList
  | .infinite true => "-Infinity".toList
  | .finite negative m e canonical =>
    let body := if m = 0 then ['0', '.', '0'] else positiveDecimal m e canonical
    if negative then '-' :: body else body

/-- The parts with commas between them. -/
def commas : List (List Char) → List Char
  | [] => []
  | [part] => part
  | part :: rest => part ++ ',' :: commas rest

mutual

/-- The canonical text of a value as characters. -/
def writeChars : Value → List Char
  | .null => "null".toList
  | .bool true => "true".toList
  | .bool false => "false".toList
  | .int n => Numeral.chars n
  | .number x => writeNumber x
  | .text t => writeText t
  | .uuid u => writeText u.canonical
  | .moment m => writeText m.plain
  | .list items => '[' :: commas (writeItems items) ++ [']']
  | .object members =>
    '\x7b' :: commas ((ordered (writeMembers members)).map fun m => writeText m.1 ++ ':' :: m.2) ++
      ['\x7d']

def writeItems : List Value → List (List Char)
  | [] => []
  | v :: rest => writeChars v :: writeItems rest

/-- Each member's key with the text of its value. -/
def writeMembers : List (Text × Value) → List (Text × List Char)
  | [] => []
  | (key, v) :: rest => (key, writeChars v) :: writeMembers rest

end

/-- The canonical text of a value. -/
def write (v : Value) : String := String.ofList (writeChars v)

/-- Why a value has no canonical text. -/
inductive WriteError where
  /-- An integer has more digits than are written. -/
  | tooLong
  /-- A container stands inside as many others as are allowed. -/
  | tooDeep
  deriving Repr, DecidableEq

def WriteError.message [Limits] : WriteError → String
  | .tooLong =>
    "Exceeds the limit (" ++ Numeral.write (Limits.digits.getD 0) ++
      " digits) for integer string conversion; use sys.set_int_max_str_digits() to increase the limit"
  | .tooDeep => "maximum recursion depth exceeded while encoding a JSON object"

mutual

/-- What stands against writing a value where there is room for so many containers inside each
other: the first fault in the order of the text. -/
def fault? [Limits] : (room : Nat) → Value → Option WriteError
  | _, .int n => if Numeral.isWritable n then none else some .tooLong
  | 0, .list _ => some .tooDeep
  | 0, .object _ => some .tooDeep
  | room + 1, .list items => (itemFaults room items).findSome? id
  | room + 1, .object members => (ordered (memberFaults room members)).findSome? (·.2)
  | _, _ => none

def itemFaults [Limits] : (room : Nat) → List Value → List (Option WriteError)
  | _, [] => []
  | room, v :: rest => fault? room v :: itemFaults room rest

/-- Each member's key with what stands against writing its value. -/
def memberFaults [Limits] : (room : Nat) → List (Text × Value) → List (Text × Option WriteError)
  | _, [] => []
  | room, (key, v) :: rest => (key, fault? room v) :: memberFaults room rest

end

/-- The lines of a report's members, each but the last with a comma. -/
def reportLines : List (String × Value) → List (List Char)
  | [] => []
  | [(key, v)] => [reportLine key v]
  | (key, v) :: rest => (reportLine key v ++ [',']) :: reportLines rest
where
  reportLine (key : String) (v : Value) : List Char :=
    ' ' :: ' ' :: writeText key ++ ':' :: ' ' :: writeChars v

/-- An object with one member to a line, in the given order. -/
def report (members : List (String × Value)) : String :=
  String.ofList ('\x7b' :: (reportLines members).flatMap ('\n' :: ·) ++ ['\n', '\x7d'])

example : write (.record [("b", .int 1), ("a", .list [.null, .string "é\n"])]) =
    "\x7b\"a\":[null,\"\\u00e9\\n\"],\"b\":1\x7d" := by
  decide +kernel

end BearerToken.Json

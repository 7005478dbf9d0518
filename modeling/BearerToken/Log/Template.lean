import BearerToken.Binary64.Places
import BearerToken.Json.Shown

/-!
# Message templates

A template is a text with placeholders, each a percent sign with a form, which are filled from one
argument. A placeholder takes the argument itself, once, or with a name in parentheses the member of
that name. Between the sign and the letter of the form stand flags, a width and a precision. Two
percent signs stand for one.

An argument that is a text has to be taken. A list or an object may be left over, as it may be there
for its members alone.
-/

namespace BearerToken.Log

open Json (Value)

/-- Why a template cannot be filled. -/
inductive TemplateError where
  /-- The template ends within a placeholder. -/
  | unfinished
  /-- The template ends within the name of a member. -/
  | unfinishedName
  | widthTooBig
  | precisionTooBig
  /-- No form has this letter, which stands at this place in the template. -/
  | unknownForm (letter : CodePoint) (place : Nat)
  | noMember (name : Text)
  /-- The argument has no members, and one is asked for. -/
  | noMembers
  /-- There are more placeholders than arguments. -/
  | noArgument
  /-- The argument is not taken by any placeholder. -/
  | leftOver
  /-- The argument is of a type that the form does not show. -/
  | wrongType
  /-- A width, a precision, a character or a number is out of its range. -/
  | outOfRange
  /-- An integer is asked for where there is no number. -/
  | notANumber
  deriving Repr, DecidableEq

/-- What stands between the percent sign and the letter of a form. -/
structure Layout where
  toLeft : Bool := false
  plus : Bool := false
  blank : Bool := false
  /-- The other variant of the form: marks of bases, points and zeros that could be left out. -/
  variant : Bool := false
  zeros : Bool := false
  width : Nat := 0
  precision : Option Nat := none

namespace Layout

/-- Reads the flags in front. -/
def readFlags (l : Layout) : Text → Layout × Text
  | .char '-' :: rest => readFlags { l with toLeft := true } rest
  | .char '+' :: rest => readFlags { l with plus := true } rest
  | .char ' ' :: rest => readFlags { l with blank := true } rest
  | .char '#' :: rest => readFlags { l with variant := true } rest
  | .char '0' :: rest => readFlags { l with zeros := true } rest
  | t => (l, t)

/-- Fills a body up to the width, at the front unless it stands to the left. -/
def fill (l : Layout) (body : Text) : Text :=
  let room := List.replicate (l.width - body.length) (.char ' ')
  if l.toLeft then body ++ room else room ++ body

/-- A number from its sign, the mark of its base and its digits. Zeros that fill the width stand
behind the mark. -/
def number (l : Layout) (negative : Bool) (mark digits : List Char) : Text :=
  let sign := if negative then ['-'] else if l.plus then ['+'] else if l.blank then [' '] else []
  let zeros := if l.zeros && !l.toLeft then
      List.replicate (l.width - (sign ++ mark ++ digits).length) '0'
    else []
  l.fill (.ofChars (sign ++ mark ++ zeros ++ digits))

/-- An integer in a base, with at least as many digits as the precision says. -/
def integer (l : Layout) (base : Nat) (mark : List Char) (n : Int) : Text :=
  let digits := Nat.toDigits base n.natAbs
  let missing := List.replicate (l.precision.getD 0 - digits.length) '0'
  l.number (n < 0) (if l.variant then mark else []) (missing ++ digits)

/-- A binary number, whose magnitude is written with the precision, or six. -/
def binary (l : Layout) (write : Bool → Nat → Int → Nat → List Char) : Binary64 → Text
  | .nan => l.number false [] "nan".toList
  | .infinite negative => l.number negative [] "inf".toList
  | .finite negative m e _ => l.number negative [] (write l.variant m e (l.precision.getD 6))

/-- A text, cut after the precision. -/
def text (l : Layout) (t : Text) : Text :=
  l.fill (match l.precision with
    | some n => t.take n
    | none => t)

end Layout

namespace Template

/-- The integer that a number is without its fraction. -/
def toInteger : Value → Except TemplateError Int
  | .bool b => .ok (if b then 1 else 0)
  | .int n => .ok n
  | .number .nan => .error .notANumber
  | .number (.infinite _) => .error .outOfRange
  | .number (.finite negative m e _) =>
    let (num, den) := Binary64.ratio m e
    let n : Int := (num / den : Nat)
    .ok (if negative then -n else n)
  | _ => .error .wrongType

/-- The integer of a value that is one, a truth value included. -/
def toIndex : Value → Except TemplateError Int
  | .bool b => .ok (if b then 1 else 0)
  | .int n => .ok n
  | _ => .error .wrongType

/-- The binary number nearest to a number. -/
def toBinary : Value → Except TemplateError Binary64
  | .number x => .ok x
  | v => do
    match Binary64.ofRatio ((← toIndex v) < 0) (← toIndex v).natAbs 1 with
    | .infinite _ => .error .outOfRange
    | x => .ok x

/-- A text of one code point, or the code point of a number. -/
def toPoint : Value → Except TemplateError Text
  | .text [c] => .ok [c]
  | v => do
    let n ← toIndex v
    if n < 0 || 0x110000 ≤ n then .error .outOfRange
    else if 0x10000 ≤ n then .ok [.char (Char.ofNat n.toNat)]
    else .ok [Text.ofUnit n.toNat]

/-- The ASCII letters in capitals. -/
def inCapitals (t : Text) : Text := t.map fun
  | .char c => .char c.toUpper
  | c => c

/-- The forms that show integers, by their letters: base, mark of the base, and what becomes of a
number with a fraction. -/
def integerForm? : CodePoint → Option (Nat × List Char × (Value → Except TemplateError Int))
  | .char 'd' | .char 'i' | .char 'u' => some (10, [], toInteger)
  | .char 'o' => some (8, ['0', 'o'], toIndex)
  | .char 'x' | .char 'X' => some (16, ['0', 'x'], toIndex)
  | _ => none

/-- The forms that show binary numbers, by their letters. -/
def binaryForm? : CodePoint → Option (Bool → Nat → Int → Nat → List Char)
  | .char 'e' | .char 'E' => some Binary64.scientific
  | .char 'f' | .char 'F' => some Binary64.fixed
  | .char 'g' | .char 'G' => some Binary64.general
  | _ => none

/-- The forms that show texts, by their letters. -/
def textForm? : CodePoint → Option (Value → Text)
  | .char 's' => some Value.display
  | .char 'r' => some fun v => .ofChars v.shown
  | .char 'a' => some fun v => .ofChars v.shownAscii
  | _ => none

/-- Letters whose form is written in capitals. -/
def capitalForms : Text := "XEFG"

/-- Shows a value in the form of a letter, which stands at a place in the template. -/
def convert (l : Layout) (letter : CodePoint) (place : Nat) (v : Value) :
    Except TemplateError Text := do
  let shown ←
    match textForm? letter, integerForm? letter, binaryForm? letter with
    | some form, _, _ => .ok (l.text (form v))
    | _, some (base, mark, read), _ => l.integer base mark <$> read v
    | _, _, some write => l.binary write <$> toBinary v
    | _, _, _ => if letter = 'c' then l.fill <$> toPoint v else .error (.unknownForm letter place)
  return if capitalForms.contains letter then inCapitals shown else shown

/-- The name up to the closing parenthesis, `depth` inner ones apart, and what follows. -/
def readName : (depth : Nat) → Text → Option (Text × Text)
  | _, [] => none
  | 0, .char ')' :: rest => some ([], rest)
  | depth, c :: rest =>
    let depth := if c = '(' then depth + 1 else if c = ')' then depth - 1 else depth
    (readName depth rest).map fun r => (c :: r.1, r.2)

/-- The member of an argument. -/
def member (name : Text) : Value → Except TemplateError Value
  | .object members =>
    match members.lookup name with
    | some v => .ok v
    | none => .error (.noMember name)
  | _ => .error .noMembers

/-- What the placeholders can take next. -/
abbrev Pending := Option Value

/-- The next argument, which then is taken. -/
def take : Pending → Except TemplateError Value
  | some v => .ok v
  | none => .error .noArgument

/-- The name of a member, if one stands here; its value is what can be taken next. -/
def readMember (argument : Value) (t : Text) (pending : Pending) :
    Except TemplateError (Pending × Text) :=
  match argument, t with
  | .text _, .char '(' :: _ => .error .noMembers
  | _, .char '(' :: rest =>
    match readName 0 rest with
    | none => .error .unfinishedName
    | some (name, rest) => do return (some (← member name argument), rest)
  | _, _ => .ok (pending, t)

/-- A number of the layout, in digits or, for an asterisk, from the argument. -/
def readNumber (bound : Nat) (tooBig : TemplateError) (t : Text) (pending : Pending) :
    Except TemplateError (Int × Text × Pending) :=
  match t with
  | .char '*' :: rest => do
    let n ← toIndex (← take pending)
    if n < -(bound : Int) - 1 || (bound : Int) < n then .error .outOfRange else .ok (n, rest, none)
  | _ =>
    let (digits, rest) := Numeral.digitRun t
    let n := Numeral.ofDigits digits
    if bound < n then .error tooBig else .ok (n, rest, pending)

/-- The greatest width and the greatest precision. -/
def maxWidth : Nat := 2 ^ 63 - 1

def maxPrecision : Nat := 2 ^ 31 - 1

/-- The width; a negative one moves the body to the left. -/
def readWidth (l : Layout) (t : Text) (pending : Pending) :
    Except TemplateError (Layout × Text × Pending) := do
  let (n, rest, pending) ← readNumber maxWidth .widthTooBig t pending
  return ({ l with toLeft := l.toLeft || n < 0, width := n.natAbs }, rest, pending)

/-- The precision, behind a point; a negative one is zero. -/
def readPrecision (l : Layout) (t : Text) (pending : Pending) :
    Except TemplateError (Layout × Text × Pending) :=
  match t with
  | .char '.' :: rest => do
    let (n, rest, pending) ← readNumber maxPrecision .precisionTooBig rest pending
    return ({ l with precision := some n.toNat }, rest, pending)
  | _ => .ok (l, t, pending)

/-- Passes over one letter that tells the size of a number, which does not matter. -/
def skipSize : Text → Text
  | .char 'h' :: rest | .char 'l' :: rest | .char 'L' :: rest => rest
  | t => t

/-- Fills a placeholder from what stands behind its percent sign; `size` is the length of the
template. Gives what is put in its place, and the text behind it. -/
def fillPlaceholder (size : Nat) (argument : Value) (t : Text) (pending : Pending) :
    Except TemplateError (Text × Text) := do
  let (pending, t) ← readMember argument t pending
  let (l, t) := Layout.readFlags {} t
  let (l, t, pending) ← readWidth l t pending
  let (l, t, pending) ← readPrecision l t pending
  match skipSize t with
  | [] => .error .unfinished
  | letter :: rest =>
    let v ← take pending
    return (← convert l letter (size - rest.length - 1) v, rest)

/-- Whether an argument may be left over. -/
def mayBeLeft : Value → Bool
  | .text _ => false
  | _ => true

/-- Fills the placeholders from the left; after one, the argument is taken. Each costs one unit of
fuel, as does any other code point. -/
def fillFrom (size : Nat) (argument : Value) : (fuel : Nat) → Text → Pending →
    Except TemplateError Text
  | 0, _, _ => .ok []
  | _, [], pending =>
    if pending.isSome && !mayBeLeft argument then .error .leftOver else .ok []
  | fuel + 1, .char '%' :: .char '%' :: rest, pending => do
    return .char '%' :: (← fillFrom size argument fuel rest pending)
  | fuel + 1, .char '%' :: rest, pending => do
    let (filled, rest) ← fillPlaceholder size argument rest pending
    return filled ++ (← fillFrom size argument fuel rest none)
  | fuel + 1, c :: rest, pending => do return c :: (← fillFrom size argument fuel rest pending)

/-- Fills a template from an argument. -/
def fill (template : Text) (argument : Value) : Except TemplateError Text :=
  fillFrom template.length argument (template.length + 1) template (some argument)

end Template

end BearerToken.Log

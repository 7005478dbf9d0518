import BearerToken.Json.Value
import BearerToken.Table
import BearerToken.Text.Units

/-!
# Reading JSON

A reader for standard JSON, which also knows the three words for binary numbers that are not finite.
A number with a point or an exponent is binary, any other is an exact integer. The members of an
object keep their order; of two with the same key the later value counts, at the earlier place. The
whole text must be one value, with blanks around it.

Text is read from left to right and the first fault ends the reading. Besides what is no JSON, an
integer of too many digits is a fault, and so is a list or an object inside too many others. A place
is told by how much of the text is left there, the code point at the place included.
-/

namespace BearerToken.Json

/-- The values that hold other values. -/
inductive Container where
  | list
  | object
  deriving Repr, DecidableEq

/-- What is wrong at the place where a text is no JSON. -/
inductive Complaint where
  | noValue
  | noKey
  | noColon
  | noComma
  /-- The string that starts here has no end. -/
  | endless
  /-- A control character stands in a string. -/
  | control
  /-- No short escape has this letter. -/
  | escape
  /-- An escape that names a unit lacks some of its digits. -/
  | unit
  /-- Something stands behind the value. -/
  | trailing
  deriving Repr, DecidableEq

def Complaint.words : Complaint → String
  | .noValue => "Expecting value"
  | .noKey => "Expecting property name enclosed in double quotes"
  | .noColon => "Expecting ':' delimiter"
  | .noComma => "Expecting ',' delimiter"
  | .endless => "Unterminated string starting at"
  | .control => "Invalid control character at"
  | .escape => "Invalid \\escape"
  | .unit => "Invalid \\uXXXX escape"
  | .trailing => "Extra data"

/-- Why a text gives no value. -/
inductive ReadError where
  | notJson (complaint : Complaint) (left : Nat)
  /-- An integer has more digits than are read. -/
  | tooLong (digits : Nat)
  /-- A container stands inside as many others as are allowed. -/
  | tooDeep (container : Container)
  deriving Repr, DecidableEq

namespace ReadError

/-- A place of a text in words. Lines and columns are counted from one. -/
def place (t : Text) (left : Nat) : String :=
  let passed := t.take (t.length - left)
  let column := (passed.reverse.takeWhile (· ≠ CodePoint.char '\n')).length + 1
  "line " ++ Numeral.write (passed.count (CodePoint.char '\n') + 1 : Nat) ++ " column " ++
    Numeral.write column ++ " (char " ++ Numeral.write passed.length ++ ")"

/-- Some writers put it in front of a text. -/
def byteOrderMark : CodePoint := .char '\ufeff'

/-- What is said of a text. One that starts with a byte order mark is told of the mark alone. -/
def message [Limits] (t : Text) : ReadError → String
  | .notJson complaint left =>
    if t.head? = some byteOrderMark then
      "Unexpected UTF-8 BOM (decode using utf-8-sig): " ++ place t t.length
    else complaint.words ++ ": " ++ place t left
  | .tooLong digits => NumeralError.message 10 [] (.tooLong digits)
  | .tooDeep .list =>
    "maximum recursion depth exceeded while decoding a JSON array from a unicode string"
  | .tooDeep .object =>
    "maximum recursion depth exceeded while decoding a JSON object from a unicode string"

end ReadError

/-- What was read, mostly with the text behind it. -/
abbrev Parsed (α : Type) := Except ReadError α

def isSpace (c : CodePoint) : Bool := c = ' ' || c = '\t' || c = '\n' || c = '\r'

def skipSpace (t : Text) : Text := t.dropWhile isSpace

/-- The letters of the short escapes and the characters they stand for. -/
def shortEscape? : CodePoint → Option Char
  | .char '"' => some '"'
  | .char '\\' => some '\\'
  | .char '/' => some '/'
  | .char 'b' => some '\x08'
  | .char 'f' => some '\x0c'
  | .char 'n' => some '\n'
  | .char 'r' => some '\r'
  | .char 't' => some '\t'
  | _ => none

/-- The value of an ASCII hexadecimal digit. -/
def hexValue? (c : CodePoint) : Option Nat := if c.toNat < 0x80 then Text.digit? 16 c else none

/-- The unit written by four hexadecimal digits. -/
def hexUnit? (a b c d : CodePoint) : Option Nat := do
  let a ← hexValue? a
  let b ← hexValue? b
  let c ← hexValue? c
  let d ← hexValue? d
  pure (((a * 16 + b) * 16 + c) * 16 + d)

/-- Puts a code point in front of a text that was read. -/
def prepend (c : CodePoint) (r : Text × Text) : Text × Text := (c :: r.1, r.2)

/-- The rest of a string, up to its closing quote, and what follows. Two escapes side by side that
name the halves of a pair stand for one character. -/
def readText : Text → Option (Text × Text)
  | [] => none
  | .char '"' :: rest => some ([], rest)
  | .char '\\' :: .char 'u' :: a :: b :: c :: d :: rest => do
    let unit ← hexUnit? a b c d
    match rest with
    | .char '\\' :: .char 'u' :: a :: b :: c :: d :: behind =>
      match (hexUnit? a b c d).bind (Text.ofPair? unit) with
      | some joined => (readText behind).map (prepend joined)
      | none =>
        (readText (.char '\\' :: .char 'u' :: a :: b :: c :: d :: behind)).map
          (prepend (Text.ofUnit unit))
    | rest => (readText rest).map (prepend (Text.ofUnit unit))
  | .char '\\' :: c :: rest => do
    let c ← shortEscape? c
    (readText rest).map (prepend c)
  | c :: rest =>
    if c.toNat < 0x20 || c = '\\' then none else (readText rest).map (prepend c)

/-- What is wrong with the rest of a string, and where, if it is not well-formed up to a closing
quote. The string starts where `size` code points are left. -/
def stringFault? (size : Nat) : Text → Option (Complaint × Nat)
  | [] => some (.endless, size)
  | .char '"' :: _ => none
  | .char '\\' :: .char 'u' :: rest =>
    match rest with
    -- one code point has to follow the digits
    | a :: b :: c :: d :: e :: behind =>
      if (hexUnit? a b c d).isSome then stringFault? size (e :: behind)
      else some (.unit, rest.length + 1)
    | _ => some (.unit, rest.length + 1)
  | .char '\\' :: c :: rest =>
    if (shortEscape? c).isSome then stringFault? size rest else some (.escape, rest.length + 2)
  | [.char '\\'] => some (.endless, size)
  | c :: rest =>
    if c.toNat < 0x20 then some (.control, rest.length + 1) else stringFault? size rest

/-- The rest of a string, up to its closing quote, and what follows. -/
def readString (t : Text) : Parsed (Text × Text) :=
  let size := t.length + 1
  match readText t, stringFault? size t with
  | some r, _ => .ok r
  | none, some (complaint, left) => .error (.notJson complaint left)
  | none, none => .error (.notJson .endless size)

theorem readString_eq_ok_iff {t : Text} {r : Text × Text} :
    readString t = .ok r ↔ readText t = some r := by
  rw [readString]
  split
  · next read => simp [read]
  · next unread _ => simp [unread]
  · next unread _ => simp [unread]

/-- The digits of a whole part: a zero alone, or digits that start with another one. The number
starts where `left` code points are left. -/
def wholePart (left : Nat) : Text → Parsed (Text × Text)
  | .char '0' :: rest => .ok (['0'], rest)
  | t =>
    match Numeral.digitRun t with
    | ([], _) => .error (.notJson .noValue left)
    | r => .ok r

/-- The digits behind a point, if a point with a digit stands here. -/
def fractionPart : Text → Option (Text × Text)
  | .char '.' :: rest =>
    match Numeral.digitRun rest with
    | ([], _) => none
    | r => some r
  | _ => none

/-- The exponent, if one stands here. -/
def exponentPart : Text → Option (Int × Text)
  | e :: rest =>
    if e = 'e' || e = 'E' then
      let (negative, rest) := match rest with
        | .char '-' :: rest => (true, rest)
        | .char '+' :: rest => (false, rest)
        | rest => (false, rest)
      match Numeral.digitRun rest with
      | ([], _) => none
      | (ds, rest) =>
        let n : Int := Numeral.ofDigits ds
        some (if negative then -n else n, rest)
    else none
  | [] => none

/-- A number behind its sign. -/
def readMagnitude [Limits] (negative : Bool) (t : Text) : Parsed (Value × Text) := do
  let (whole, rest) ← wholePart (if negative then t.length + 1 else t.length) t
  let fraction := fractionPart rest
  let (fractionDigits, rest) := fraction.getD ([], rest)
  let exponent := exponentPart rest
  let (power, rest) := exponent.getD (0, rest)
  if fraction.isSome || exponent.isSome then
    let digits := Numeral.ofDigits (whole ++ fractionDigits)
    .ok (.number (.ofDecimal negative digits (power - fractionDigits.length)), rest)
  else if Limits.digits.any (· < whole.length) then .error (.tooLong whole.length)
  else
    let n : Int := Numeral.ofDigits whole
    .ok (.int (if negative then -n else n), rest)

/-- What follows a word, if the word stands in front. -/
def behind? (word : Text) (t : Text) : Option Text :=
  if word.isPrefixOf t then some (t.drop word.length) else none

/-- The words for values. -/
def words : List (Text × Value) :=
  [("null", .null), ("true", .bool true), ("false", .bool false), ("NaN", .number .nan),
   ("Infinity", .number (.infinite false)), ("-Infinity", .number (.infinite true))]

def readWord? (t : Text) : Option (Value × Text) :=
  words.findSome? fun w => (behind? w.1 t).map fun rest => (w.2, rest)

/-- A word, or a number. -/
def readPlain [Limits] (t : Text) : Parsed (Value × Text) :=
  match readWord? t, t with
  | some r, _ => .ok r
  | none, .char '-' :: rest => readMagnitude true rest
  | none, t => readMagnitude false t

mutual

/-- One value, and what follows it. There is room for so many containers inside each other. Each
value inside another takes one unit of fuel, and so does each value behind another. -/
def readValue [Limits] : (fuel room : Nat) → Text → Parsed (Value × Text)
  | _, _, .char '"' :: rest => (readString rest).map fun r => (.text r.1, r.2)
  | _, 0, .char '[' :: _ => .error (.tooDeep .list)
  | _, 0, .char '\x7b' :: _ => .error (.tooDeep .object)
  | fuel + 1, room + 1, .char '[' :: rest =>
    match skipSpace rest with
    | .char ']' :: rest => .ok (.list [], rest)
    | rest => (readItems fuel room rest).map fun r => (.list r.1, r.2)
  | fuel + 1, room + 1, .char '\x7b' :: rest =>
    match skipSpace rest with
    | .char '\x7d' :: rest => .ok (.object [], rest)
    | rest => (readMembers fuel room rest).map fun r => (.object (Table.ofList r.1).entries, r.2)
  | _, _, t => readPlain t

/-- The items of a list, at least one, and what follows the closing bracket. -/
def readItems [Limits] : (fuel room : Nat) → Text → Parsed (List Value × Text)
  | 0, _, t => .error (.notJson .noValue t.length)
  | fuel + 1, room, t => do
    let (v, rest) ← readValue fuel room t
    match skipSpace rest with
    | .char ']' :: rest => .ok ([v], rest)
    | .char ',' :: rest =>
      let (vs, rest) ← readItems fuel room (skipSpace rest)
      .ok (v :: vs, rest)
    | rest => .error (.notJson .noComma rest.length)

/-- The members of an object, at least one, and what follows the closing brace. -/
def readMembers [Limits] : (fuel room : Nat) → Text → Parsed (List (Text × Value) × Text)
  | fuel + 1, room, .char '"' :: rest => do
    let (key, rest) ← readString rest
    match skipSpace rest with
    | .char ':' :: rest =>
      let (v, rest) ← readValue fuel room (skipSpace rest)
      match skipSpace rest with
      | .char '\x7d' :: rest => .ok ([(key, v)], rest)
      | .char ',' :: rest =>
        let (members, rest) ← readMembers fuel room (skipSpace rest)
        .ok ((key, v) :: members, rest)
      | rest => .error (.notJson .noComma rest.length)
    | rest => .error (.notJson .noColon rest.length)
  | _, _, t => .error (.notJson .noKey t.length)

end

/-- The value that a text denotes, if it is the text of one value. Every value that takes fuel
starts with a code point of its own, so the length of the text is fuel enough. -/
def read [Limits] (t : Text) : Parsed Value := do
  let (v, rest) ← readValue (2 * t.length + 1) Limits.depth (skipSpace t)
  let rest := skipSpace rest
  if rest.isEmpty then .ok v else .error (.notJson .trailing rest.length)

end BearerToken.Json

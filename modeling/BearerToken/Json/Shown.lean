import BearerToken.Json.Writer
import BearerToken.Text.Quoted

/-!
# Values in messages

How a value is shown to the readers of a message, which is not its JSON text: null, true and false
are `None`, `True` and `False`, texts are quoted, and the members of an object keep their order. A
text that is itself the message is not quoted. Whatever a value holds, it is shown in characters.
-/

namespace BearerToken.Json

/-- The parts with a comma and a blank between them. -/
def listed : List (List Char) → List Char
  | [] => []
  | [part] => part
  | part :: rest => part ++ ',' :: ' ' :: listed rest

def shownNumber : Binary64 → List Char
  | .nan => "nan".toList
  | .infinite false => "inf".toList
  | .infinite true => "-inf".toList
  | x => writeNumber x

namespace Value

mutual

/-- A value inside a message. -/
def shown : Value → List Char
  | .null => "None".toList
  | .bool true => "True".toList
  | .bool false => "False".toList
  | .int n => Numeral.chars n
  | .number x => shownNumber x
  | .text t => t.quotedChars
  | .uuid u => Text.quotedChars u.canonical
  | .moment m => Text.quotedChars m.plain
  | .list items => '[' :: listed (shownItems items) ++ [']']
  | .object members => '\x7b' :: listed (shownMembers members) ++ ['\x7d']

def shownItems : List Value → List (List Char)
  | [] => []
  | v :: rest => v.shown :: shownItems rest

def shownMembers : List (Text × Value) → List (List Char)
  | [] => []
  | (key, v) :: rest => (key.quotedChars ++ ':' :: ' ' :: v.shown) :: shownMembers rest

end

/-- A value as a message: a text stands for itself. -/
def display : Value → Text
  | .text t => t
  | v => .ofChars v.shown

/-- A value inside a message that is kept to ASCII. -/
def shownAscii (v : Value) : List Char :=
  v.shown.flatMap fun c => if c.toNat < 0x80 then [c] else Text.numericEscape c.toNat

end Value

example : String.ofList (Value.list [.null, .string "a'b", .record [("k", .bool true)]]).shown =
    "[None, \"a'b\", \x7b'k': True\x7d]" := by
  decide +kernel

end BearerToken.Json

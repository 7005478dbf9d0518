import BearerToken.Binary64
import BearerToken.Calendar
import BearerToken.Text
import BearerToken.Uuid

/-!
# State values

The values that a record can carry: those of the JSON data model, with exact integers beside binary
numbers, and two kinds of leaf that JSON has no form for, identifiers and moments. A leaf of these
kinds stands for its text, and the order of an object's members says nothing. `normal` replaces such
leaves by their text and orders the members, so two values mean the same when their normal forms
agree.
-/

namespace BearerToken.Json

/-- A state value. -/
inductive Value where
  | null
  | bool (b : Bool)
  | int (n : Int)
  | number (x : Binary64)
  | text (t : Text)
  | uuid (u : Uuid)
  | moment (m : Moment)
  | list (items : List Value)
  | object (members : List (Text × Value))
  deriving Repr, Inhabited

/-- Puts a member in its place among members ordered by key, over one with the same key. -/
def insertMember (key : Text) (a : α) : List (Text × α) → List (Text × α)
  | [] => [(key, a)]
  | (key', a') :: rest =>
    if key' = key then (key, a) :: rest
    else if key.le key' then (key, a) :: (key', a') :: rest
    else (key', a') :: insertMember key a rest

/-- Members ordered by key; of two with the same key the later one is kept. -/
def ordered (members : List (Text × α)) : List (Text × α) :=
  members.foldl (fun acc m => insertMember m.1 m.2 acc) []

namespace Value

/-- A text value from a string. -/
def string (s : String) : Value := .text s

def ofOption (f : α → Value) : Option α → Value
  | none => .null
  | some a => f a

/-- An object whose keys are plain texts. -/
def record (members : List (String × Value)) : Value :=
  .object (members.map fun m => (Text.ofString m.1, m.2))

def emptyObject : Value := .object []

/-- Whether a value counts as nothing: null, false, zero, and what has no elements. -/
def isVoid : Value → Bool
  | .null | .bool false | .int 0 | .text [] | .list [] | .object [] => true
  | .number (.finite _ 0 _ _) => true
  | _ => false

/-- The member of an object with a given key. -/
def member? (name : String) : Value → Option Value
  | .object members => members.lookup (Text.ofString name)
  | _ => none

mutual

/-- The JSON value that a state value stands for, with members in order. -/
def normal : Value → Value
  | .null => .null
  | .bool b => .bool b
  | .int n => .int n
  | .number x => .number x
  | .text t => .text t
  | .uuid u => .string u.canonical
  | .moment m => .string m.plain
  | .list items => .list (normalItems items)
  | .object members => .object (ordered (normalMembers members))

def normalItems : List Value → List Value
  | [] => []
  | v :: rest => v.normal :: normalItems rest

def normalMembers : List (Text × Value) → List (Text × Value)
  | [] => []
  | (key, v) :: rest => (key, v.normal) :: normalMembers rest

end

end Value

end BearerToken.Json

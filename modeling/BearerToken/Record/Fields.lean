import BearerToken.Json.Reader
import BearerToken.Json.Writer
import BearerToken.Record
import BearerToken.Table
import BearerToken.Text.Caseless
import BearerToken.Text.Utf8

/-!
# Persisted fields

The flat map of texts in which stores keep a record. Four fields are required, and a map that lacks
one or has it empty is no record, as it may have been written or evicted in part. The three fields
of the principal are optional, and a principal of an unknown kind is dropped. The state is kept as
canonical JSON, so its leaves that JSON has no form for come back as text.

Other programs write such maps too, and may hand keys and values back as bytes, so reading starts
from cells that are not yet text.
-/

namespace BearerToken

/-- The fields of a persisted record. -/
abbrev Fields := Table Text Text

/-- A key or value as a store hands it back. -/
inductive Cell where
  | text (t : Text)
  | bytes (bs : Bytes)
  | int (n : Int)
  | bool (b : Bool)
  | absent
  /-- A text that was to come as bytes and has none. -/
  | unwritable (cause : EncodeFault)
  deriving Repr, DecidableEq

/-- Why a persisted map cannot be read as a record. -/
inductive RecordError where
  | notUtf8 (cause : DecodeFault)
  /-- A key or value holds surrogates, so it has no bytes. -/
  | noBytes (cause : EncodeFault)
  | badState (text : Text) (cause : Json.ReadError)
  | badId (cause : TokenIdError)
  | badNumber (text : Text) (cause : NumeralError)
  | badPrincipal (cause : UuidError)
  deriving Repr, DecidableEq

namespace RecordError

def message [Limits] : RecordError → String
  | .notUtf8 cause => cause.message
  | .noBytes cause => cause.message
  | .badState text cause => cause.message text
  | .badId cause => cause.message
  | .badNumber text cause => cause.message 10 text
  | .badPrincipal cause => cause.message

end RecordError

namespace Cell

/-- The text of a cell. -/
def toText : Cell → Except RecordError Text
  | .text t => .ok t
  | .bytes bs =>
    match bs.toString? with
    | some s => .ok s
    | none => .error (.notUtf8 (.of 0 bs))
  | .int n => .ok (Numeral.write n)
  | .bool true => .ok "True"
  | .bool false => .ok "False"
  | .absent => .ok "None"
  | .unwritable cause => .error (.noBytes cause)

/-- The key that a cell is in a map, where the truth values are the numbers one and zero. -/
def key : Cell → Cell
  | .bool b => .int (if b then 1 else 0)
  | cell => cell

end Cell

/-- A record read from its fields, and the kind of its principal if that kind is unknown. -/
structure Reading where
  record : Record
  unknownPrincipal : Option Text

namespace Fields

def uuidField : Text := "uuid"
def typeField : Text := "type"
def createdField : Text := "created"
def accessedField : Text := "accessed"
def principalField : Text := "principal"
def entityField : Text := "entity"
def applicationField : Text := "application"
def stateField : Text := "state"

def requiredFields : List Text := [uuidField, typeField, createdField, accessedField]

/-- The state that is persisted: a void state is an empty object. -/
def keptState (state : Json.Value) : Json.Value := if state.isVoid then .emptyObject else state

def stateText (state : Json.Value) : String := Json.write (keptState state)

/-- The fields of a principal, the scope only if there is one. -/
def ofPrincipal : Option Principal → List (Text × Text)
  | none => []
  | some p =>
    (principalField, p.kind.name) :: (entityField, p.id.canonical) ::
      p.scope.toList.map fun scope => (applicationField, scope.canonical)

/-- The fields that persist a record. -/
def ofRecord (r : Record) : Fields :=
  ⟨(uuidField, r.id.canonical) :: (typeField, r.label) ::
    (createdField, Numeral.write r.created) :: (accessedField, Numeral.write r.accessed) ::
    (stateField, stateText r.state) :: ofPrincipal r.principal⟩

/-- What stands against persisting a record: the first fault in the order of its fields. -/
def fault? [Limits] (r : Record) : Option Json.WriteError :=
  [.int r.created, .int r.accessed, keptState r.state].findSome? (Json.fault? Limits.depth)

/-- The fields that persist a record, unless a number or its state cannot be written. -/
def persist [Limits] (r : Record) : Except Json.WriteError Fields :=
  match fault? r with
  | some cause => .error cause
  | none => .ok (ofRecord r)

/-- The value of a field, unless it is missing or empty. -/
def filled? (fields : Fields) (name : Text) : Option Text :=
  (fields.get? name).filter (!·.isEmpty)

/-- The fields of cells: keys that become the same text are one key, and the later value counts. A
value that gives way to a later one under the same key need not be text. -/
def ofCells (cells : List (Cell × Cell)) : Except RecordError Fields := do
  let held := Table.ofList (cells.map fun e => (e.1.key, e.2))
  let entries ← held.entries.mapM fun e => do
    let key ← e.1.toText
    let value ← e.2.toText
    pure (key, value)
  pure (Table.ofList entries)

def readUuid (t : Text) : Except RecordError Uuid :=
  match Uuid.parse t with
  | .ok u => .ok u
  | .error cause => .error (.badPrincipal cause)

/-- The principal, or the name of its kind if that is unknown. A principal needs an entity. -/
def readPrincipal (fields : Fields) : Except RecordError (Option Principal × Option Text) :=
  match fields.filled? principalField with
  | none => .ok (none, none)
  | some raw =>
    match PrincipalKind.ofName? (Text.lower raw) with
    | none => .ok (none, some raw)
    | some kind =>
      match fields.filled? entityField with
      | none => .ok (none, none)
      | some entity => do
        let id ← readUuid entity
        let scope ← match fields.filled? applicationField with
          | none => pure none
          | some application => some <$> readUuid application
        .ok (some ⟨kind, id, scope⟩, none)

def readState [Limits] (fields : Fields) : Except RecordError Json.Value :=
  match fields.filled? stateField with
  | none => .ok .emptyObject
  | some text =>
    match Json.read text with
    | .ok state => .ok state
    | .error cause => .error (.badState text cause)

def readId (t : Text) : Except RecordError TokenId :=
  match TokenId.parse t with
  | .ok id => .ok id
  | .error cause => .error (.badId cause)

def readInt [Limits] (t : Text) : Except RecordError Int :=
  match Numeral.read 10 t with
  | .ok n => .ok n
  | .error cause => .error (.badNumber t cause)

/-- The record that the fields persist; there is none while a required field is missing or empty. -/
def toRecord [Limits] (fields : Fields) : Except RecordError (Option Reading) :=
  match fields.filled? uuidField, fields.filled? typeField, fields.filled? createdField,
    fields.filled? accessedField with
  | some uuid, some label, some created, some accessed => do
    let state ← readState fields
    let id ← readId uuid
    let created ← readInt created
    let accessed ← readInt accessed
    let (principal, unknownPrincipal) ← readPrincipal fields
    .ok (some ⟨⟨id, label, created, accessed, principal, state⟩, unknownPrincipal⟩)
  | _, _, _, _ => .ok none

/-- The record that cells persist. -/
def recordOfCells [Limits] (cells : List (Cell × Cell)) : Except RecordError (Option Reading) := do
  (← ofCells cells).toRecord

end Fields

end BearerToken

import BearerToken.Record.Fields

/-!
# A server of hashes

A server that keeps a map of texts under each key, as the store on it sees it. A client asks for the
fields of a key, or opens a pipeline in which writes are queued and applied together at the end. Any
call can fail, as given by a table of faults; a call that fails has been made all the same, and what
was queued is then lost. The calls made are kept in order.
-/

namespace BearerToken

/-- A call of the client. -/
inductive Call where
  /-- Connects to the server at an address. -/
  | connect (url : Text)
  | fetch (key : Text)
  | pipeline
  | watch (key : Text)
  | exists (key : Text)
  | multi
  | set (key : Text) (fields : Fields)
  | expire (key : Text) (seconds : Int)
  | execute
  deriving DecidableEq

namespace Call

/-- The name of the command. -/
def name : Call → String
  | .connect _ => "from_url"
  | .fetch _ => "hgetall"
  | .pipeline => "pipeline"
  | .watch _ => "watch"
  | .exists _ => "exists"
  | .multi => "multi"
  | .set _ _ => "hset"
  | .expire _ _ => "expire"
  | .execute => "execute"

end Call

/-- An error of the client: its class and its text. -/
structure Fault where
  kind : String
  message : Text
  deriving Repr, DecidableEq

/-- The content of a server, the calls made, and the commands that fail. -/
structure HashServer where
  hashes : Table Text Fields
  calls : List Call
  faults : Table String Fault
  /-- Whether fields are handed back as bytes. -/
  givesBytes : Bool

namespace HashServer

def empty : HashServer := ⟨.empty, [], .empty, false⟩

instance : Inhabited HashServer := ⟨empty⟩

/-- A step of the client on the server. -/
def Step (α : Type) := HashServer → Except Fault α × HashServer

namespace Step

variable {α β : Type}

def pure (x : α) : Step α := fun s => (.ok x, s)

def bind (a : Step α) (f : α → Step β) : Step β := fun s =>
  match a s with
  | (.ok x, s) => f x s
  | (.error e, s) => (.error e, s)

instance : Monad Step where
  pure := pure
  bind := bind

end Step

/-- Makes a call, which may fail. -/
def call (c : Call) : Step Unit := fun s =>
  let s := { s with calls := s.calls ++ [c] }
  match s.faults.get? c.name with
  | some fault => (.error fault, s)
  | none => (.ok (), s)

/-- The fields under a key; there are none under a key that was never written. -/
def fieldsAt (s : HashServer) (key : Text) : Fields := (s.hashes.get? key).getD .empty

/-- A text as the client gets it. -/
def cell (s : HashServer) (t : Text) : Cell :=
  if s.givesBytes then
    match t.toString? with
    | some string => .bytes (.ofString string)
    | none => .unwritable (.of t)
  else .text t

/-- The fields under a key as the client gets them. -/
def cellsAt (s : HashServer) (key : Text) : List (Cell × Cell) :=
  (s.fieldsAt key).entries.map fun e => (s.cell e.1, s.cell e.2)

/-- Writes fields over those under a key. -/
def write (s : HashServer) (key : Text) (fields : Fields) : HashServer :=
  { s with hashes := s.hashes.set key ((s.fieldsAt key).merge fields) }

def fetch (key : Text) : Step (List (Cell × Cell)) := do
  call (.fetch key)
  fun s => (.ok (s.cellsAt key), s)

def fieldsExist (key : Text) : Step Bool := do
  call (.exists key)
  fun s => (.ok !(s.fieldsAt key).isEmpty, s)

/-- Queues a write with its retention, and executes the queue. The write is applied only if every
call succeeds. -/
def commit (key : Text) (fields : Fields) (ttlSeconds : Int) : Step Unit := do
  call (.set key fields)
  call (.expire key ttlSeconds)
  call .execute
  fun s => (.ok (), s.write key fields)

end HashServer

end BearerToken

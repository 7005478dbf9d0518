import BearerToken.Store
import BearerToken.Store.HashServer

/-!
# The store on a server of hashes

Each record is one hash, at the namespace and the canonical identifier with a colon between them,
and the server forgets it after the retention. A write sends the fields and the retention in one
pipeline, so they change together or not at all. A change of the access time watches the key first
and is skipped when the key is gone, so that an evicted record does not come back in part.
-/

namespace BearerToken.Remote

open HashServer (Step call)

def defaultNamespace : Text := "tokens"

def key (ns : Text) (id : TokenId) : Text := ns ++ .ofString (":" ++ id.canonical)

/-- The calls that write a record. Its fields are made once the pipeline is open. -/
def putSteps (key : Text) (fields : Except Json.WriteError Fields) (ttlSeconds : Int) :
    Step Unit := do
  call .pipeline
  if let .ok fields := fields then HashServer.commit key fields ttlSeconds

/-- The calls that change the time of access. Its text is made once the queue is open. -/
def setAccessedSteps (key : Text) (accessedMs ttlSeconds : Int) :
    Step (Except Json.WriteError Unit) := do
  call .pipeline
  call (.watch key)
  if ← HashServer.fieldsExist key then
    call .multi
    if !Numeral.isWritable accessedMs then return .error .tooLong
    HashServer.commit key ⟨[(Fields.accessedField, Numeral.write accessedMs)]⟩ ttlSeconds
  return .ok ()

/-- Runs a step as an action; its result may be a fault. -/
def attempt (step : Step α) : Action HashServer (Except Fault α) := .onStore step

/-- The store in a namespace of the server. A fault is reported, and becomes a store error. -/
def store (ns : Text) : Store HashServer where
  put _ id record ttlSeconds := do
    let fields := Fields.persist record
    if let .error fault ← attempt (putSteps (key ns id) fields ttlSeconds) then
      .emit (.writeFailed id fault.message)
      .fail (.store (.write fault.message))
    if let .error cause := fields then .fail (.unwritable cause)
  get _ id := do
    match ← attempt (HashServer.fetch (key ns id)) with
    | .error fault =>
      .emit (.readFailed id fault.message)
      .fail (.store (.read fault.message))
    | .ok [] => return none
    | .ok cells => .ofReading (Fields.recordOfCells cells)
  setAccessed _ id accessedMs ttlSeconds := do
    match ← attempt (setAccessedSteps (key ns id) accessedMs ttlSeconds) with
    | .error fault =>
      .emit (.writeFailed id fault.message)
      .fail (.store (.access fault.message))
    | .ok (.error cause) => .fail (.unwritable cause)
    | .ok (.ok ()) => return ()

end BearerToken.Remote

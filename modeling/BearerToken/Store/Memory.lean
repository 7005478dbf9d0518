import BearerToken.Store

/-!
# The store in memory

A table from identifiers to persisted fields with a deadline. An entry is live before its deadline
and counts as absent from then on. Entries past their deadline are removed lazily: on a read of the
entry, when entries are counted, and by a sweep that a write starts, at most once in an interval.
Until then they stay in the table unseen.
-/

namespace BearerToken

/-- The persisted fields of a record, and when they cease to count. -/
structure Entry where
  fields : Fields
  deadline : Int
  deriving DecidableEq

namespace Entry

def isLive (e : Entry) (nowMs : Int) : Bool := nowMs < e.deadline

end Entry

/-- The content of a store in memory, and the time from which a write sweeps it again. -/
structure Memory where
  entries : Table TokenId Entry
  nextPurge : Int

namespace Memory

/-- Writes sweep at most this often, in milliseconds. -/
def purgeInterval : Int := 60000

def empty : Memory := ⟨.empty, 0⟩

instance : Inhabited Memory := ⟨empty⟩

def deadline (nowMs ttlSeconds : Int) : Int := nowMs + ttlSeconds * 1000

/-- Removes every entry past its deadline. -/
def purge (m : Memory) (nowMs : Int) : Memory :=
  { m with entries := m.entries.keep (·.isLive nowMs) }

/-- Sweeps, if the time for it has come. -/
def sweep (m : Memory) (nowMs : Int) : Memory :=
  if m.nextPurge ≤ nowMs then { m.purge nowMs with nextPurge := nowMs + purgeInterval } else m

def put (m : Memory) (nowMs : Int) (id : TokenId) (fields : Fields) (ttlSeconds : Int) : Memory :=
  let m := m.sweep nowMs
  { m with entries := m.entries.set id ⟨fields, deadline nowMs ttlSeconds⟩ }

def delete (m : Memory) (id : TokenId) : Memory := { m with entries := m.entries.erase id }

/-- The fields of a live entry, if there is one. -/
def live? (m : Memory) (nowMs : Int) (id : TokenId) : Option Fields :=
  ((m.entries.get? id).filter (·.isLive nowMs)).map Entry.fields

/-- Removes the entry if it is past its deadline. -/
def dropExpired (m : Memory) (nowMs : Int) (id : TokenId) : Memory :=
  if (m.entries.get? id).any (!·.isLive nowMs) then m.delete id else m

def setAccessed (m : Memory) (nowMs : Int) (id : TokenId) (accessedMs ttlSeconds : Int) : Memory :=
  match m.live? nowMs id with
  | none => m.dropExpired nowMs id
  | some fields =>
    let fields := fields.set Fields.accessedField (Numeral.write accessedMs)
    { m with entries := m.entries.set id ⟨fields, deadline nowMs ttlSeconds⟩ }

/-- The count of live entries; the others are removed. -/
def size (m : Memory) (nowMs : Int) : Nat × Memory :=
  let m := m.purge nowMs
  (m.entries.size, m)

/-- The store with this content. -/
def store : Store Memory where
  put nowMs id record ttlSeconds :=
    match Fields.persist record with
    | .ok fields => .onStore fun m => ((), m.put nowMs id fields ttlSeconds)
    | .error cause => do
      .onStore fun m => ((), m.sweep nowMs)
      .fail (.unwritable cause)
  get nowMs id := do
    match ← Action.onStore fun m => (m.live? nowMs id, m.dropExpired nowMs id) with
    | none => return none
    | some fields => .ofReading fields.toRecord
  setAccessed nowMs id accessedMs ttlSeconds := do
    let held ← .onStore fun m => ((m.live? nowMs id).isSome, m)
    if held && !Numeral.isWritable accessedMs then .fail (.unwritable .tooLong)
    .onStore fun m => ((), m.setAccessed nowMs id accessedMs ttlSeconds)

end Memory

end BearerToken

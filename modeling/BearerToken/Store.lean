import BearerToken.Action

/-!
# Token stores

The interface between the uses of tokens and what keeps their records. Every operation is told the
time. A store fails with an error of its own, on a record that it cannot write, or on a content that
it cannot read.
-/

namespace BearerToken

/-- A store with content `σ`. Retentions are in seconds, times in epoch milliseconds. -/
structure Store (σ : Type) where
  /-- Writes the record, new or not, and restarts its retention. -/
  put : (nowMs : Int) → TokenId → Record → (ttlSeconds : Int) → Action σ Unit
  /-- The record, or nothing if it is absent or its retention is over. -/
  get : (nowMs : Int) → TokenId → Action σ (Option Record)
  /-- Changes the time of last access alone and restarts the retention. What is absent stays so. -/
  setAccessed : (nowMs : Int) → TokenId → (accessedMs : Int) → (ttlSeconds : Int) → Action σ Unit

namespace Store

variable {σ : Type}

/-- A store that refuses to change the times of access. -/
def readOnly (s : Store σ) : Store σ where
  put := s.put
  get := s.get
  setAccessed _ _ _ _ := .fail (.store (.other "read only replica"))

/-- A store that is out of reach. -/
def unreachable : Store σ where
  put _ _ _ _ := .fail (.store (.other "store down"))
  get _ _ := .fail (.store (.other "store down"))
  setAccessed _ _ _ _ := .fail (.store (.other "store down"))

end Store

end BearerToken

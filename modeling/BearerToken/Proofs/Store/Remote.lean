import Mathlib
import BearerToken.Proofs.Action
import BearerToken.Proofs.Record.RoundTrip
import BearerToken.Proofs.Uuid
import BearerToken.Store.Remote

/-!
# What the store on a server does

What each operation of the store gives, and what it leaves on a server on which no call fails. A
record that the server holds is read back as the store in memory reads it, as texts or as bytes, and
a write lays the fields of a record over those that the server holds.
-/

namespace BearerToken

namespace HashServer

variable {s : HashServer} {key : Text} {fields : Fields}

/-- No call fails. -/
def Calm (s : HashServer) : Prop := s.faults = .empty

/-- The client can hand the text back: as bytes only if it has bytes. -/
def Conveys (s : HashServer) (t : Text) : Prop := s.givesBytes = true → t.toString?.isSome

/-- The server after some more calls. -/
def heard (s : HashServer) (calls : List Call) : HashServer := { s with calls := s.calls ++ calls }

@[simp] theorem heard_heard (calls later : List Call) :
    (s.heard calls).heard later = s.heard (calls ++ later) := by
  simp [heard]

theorem Calm.heard (calm : s.Calm) (calls : List Call) : (s.heard calls).Calm := calm

theorem get?_write (s : HashServer) (key other : Text) (fields : Fields) :
    (s.write key fields).hashes.get? other =
      if key = other then some ((s.fieldsAt key).merge fields) else s.hashes.get? other :=
  Table.get?_set _ _ _ _

theorem fieldsAt_of_none (absent : s.hashes.get? key = none) : s.fieldsAt key = .empty := by
  rw [fieldsAt, absent, Option.getD_none]

theorem fieldsAt_of_some (held : s.hashes.get? key = some fields) : s.fieldsAt key = fields := by
  rw [fieldsAt, held, Option.getD_some]

section Cells

variable {t : Text}

theorem conveys_ofString (s : HashServer) (string : String) : s.Conveys string := by
  intro _
  rw [Text.toString?_ofString]
  rfl

theorem Conveys.holds_cell (conveys : s.Conveys t) : (s.cell t).Holds t := by
  rw [cell]
  split
  · next bytes =>
    obtain ⟨string, same⟩ := Option.isSome_iff_exists.mp (conveys bytes)
    rw [same]
    exact .inr ⟨string, Text.eq_ofString_of_toString? same, rfl⟩
  · exact .inl rfl

/-- Fields that the client can hand back are handed back. -/
theorem holds_cellsAt_of_conveys
    (conveys : ∀ e ∈ (s.fieldsAt key).entries, s.Conveys e.1 ∧ s.Conveys e.2) :
    Fields.Holds (s.cellsAt key) (s.fieldsAt key).entries := by
  rw [cellsAt, Fields.Holds, List.forall₂_map_left_iff, List.forall₂_same]
  exact fun e member => ⟨(conveys e member).1.holds_cell, (conveys e member).2.holds_cell⟩

/-- The fields of a record can be handed back if its label can: all others are texts of
characters. -/
theorem conveys_ofRecord {r : Record} (label : s.Conveys r.label) :
    ∀ e ∈ (Fields.ofRecord r).entries, s.Conveys e.1 ∧ s.Conveys e.2 := by
  have strings (name value : String) : s.Conveys name ∧ s.Conveys value :=
    ⟨conveys_ofString s name, conveys_ofString s value⟩
  have label : s.Conveys Fields.typeField ∧ s.Conveys r.label :=
    ⟨conveys_ofString s "type", label⟩
  obtain ⟨id, _, created, accessed, principal, state⟩ := r
  simp only [Fields.ofRecord, List.forall_mem_cons]
  refine ⟨strings _ _, label, strings _ _, strings _ _, strings _ _, ?_⟩
  obtain _ | ⟨kind, entity, _ | scope⟩ := principal
  · simp [Fields.ofPrincipal]
  · simp only [Fields.ofPrincipal, Option.toList_none, List.map_nil, List.forall_mem_cons]
    exact ⟨strings _ _, strings _ _, by simp⟩
  · simp only [Fields.ofPrincipal, Option.toList_some, List.map_cons, List.map_nil,
      List.forall_mem_cons]
    exact ⟨strings _ _, strings _ _, strings _ _, by simp⟩

theorem holds_cellsAt {r : Record} (held : s.hashes.get? key = some (Fields.ofRecord r))
    (conveys : s.Conveys r.label) : Fields.Holds (s.cellsAt key) (Fields.ofRecord r).entries := by
  have fields := fieldsAt_of_some held
  have holds : Fields.Holds (s.cellsAt key) (s.fieldsAt key).entries :=
    holds_cellsAt_of_conveys (fields ▸ conveys_ofRecord conveys)
  rwa [fields] at holds

end Cells

section Steps

variable {α β : Type} {a : Step α} {f : α → Step β} {x : α} {s' : HashServer}

theorem bind_ok (first : a s = (.ok x, s')) : (a >>= f) s = f x s' := by
  change Step.bind a f s = _
  rw [Step.bind, first]

theorem call_calm (calm : s.Calm) (c : Call) : call c s = (.ok (), s.heard [c]) := by
  have none : s.faults.get? c.name = none := by
    rw [calm]
    rfl
  simp only [call, none]
  rfl

theorem fetch_calm (calm : s.Calm) (key : Text) :
    fetch key s = (.ok (s.cellsAt key), s.heard [.fetch key]) :=
  bind_ok (call_calm calm _)

theorem fieldsExist_calm (calm : s.Calm) (key : Text) :
    fieldsExist key s = (.ok !(s.fieldsAt key).isEmpty, s.heard [.exists key]) :=
  bind_ok (call_calm calm _)

theorem commit_calm (calm : s.Calm) (key : Text) (fields : Fields) (ttl : Int) :
    commit key fields ttl s =
      (.ok (), (s.heard [.set key fields, .expire key ttl, .execute]).write key fields) := by
  rw [commit, bind_ok (call_calm calm _), bind_ok (call_calm (calm.heard _) _)]
  refine (bind_ok (call_calm ((calm.heard _).heard _) _)).trans ?_
  rw [heard_heard, heard_heard]
  rfl

end Steps

end HashServer

namespace Remote

open HashServer (Step call)

variable {ns : Text} {nowMs ttl accessed : Int} {id other : TokenId} {r : Record}
  {w : World HashServer}

theorem key_injective (same : key ns id = key ns other) : id = other := by
  have names := Text.ofString_inj.mp (List.append_cancel_left same)
  have texts := congrArg String.toList names
  rw [String.toList_append, String.toList_append] at texts
  exact TokenId.canonical_injective (List.append_cancel_left texts)

/-- The calls that write a record. -/
def putCalls (key : Text) (fields : Fields) (ttl : Int) : List Call :=
  [.pipeline, .set key fields, .expire key ttl, .execute]

/-- The calls that change the time of access of a record that is there. -/
def setAccessedCalls (key : Text) (fields : Fields) (ttl : Int) : List Call :=
  [.pipeline, .watch key, .exists key, .multi, .set key fields, .expire key ttl, .execute]

theorem run_attempt {α : Type} {step : Step α} {result : Except Fault α} {s : HashServer}
    (done : step w.store = (result, s)) :
    (attempt step).run w = (.ok result, { w with store := s }) := by
  change (Except.ok (step w.store).1, { w with store := (step w.store).2 }) = _
  rw [done]

theorem run_put (calm : w.store.Calm) (writable : Fields.fault? r = none) :
    ((store ns).put nowMs id r ttl).run w = (.ok (), { w with
      store := (w.store.heard (putCalls (key ns id) (Fields.ofRecord r) ttl)).write (key ns id)
        (Fields.ofRecord r) }) := by
  have steps : putSteps (key ns id) (.ok (Fields.ofRecord r)) ttl w.store = (.ok (),
      (w.store.heard (putCalls (key ns id) (Fields.ofRecord r) ttl)).write (key ns id)
        (Fields.ofRecord r)) := by
    rw [putSteps, HashServer.bind_ok (HashServer.call_calm calm _)]
    refine (HashServer.commit_calm (calm.heard _) _ _ _).trans ?_
    rw [HashServer.heard_heard]
    rfl
  simp only [store, Fields.persist_eq writable]
  rw [Action.run_bind_ok (run_attempt steps)]
  rfl

theorem run_put_unwritable (calm : w.store.Calm) {cause : Json.WriteError}
    (unwritable : Fields.fault? r = some cause) :
    ((store ns).put nowMs id r ttl).run w =
      (.error (.unwritable cause), { w with store := w.store.heard [.pipeline] }) := by
  have steps : putSteps (key ns id) (.error cause) ttl w.store =
      (.ok (), w.store.heard [.pipeline]) :=
    HashServer.bind_ok (HashServer.call_calm calm _)
  simp only [store, Fields.persist, unwritable]
  rw [Action.run_bind_ok (run_attempt steps)]
  rfl

theorem run_get_absent (calm : w.store.Calm) (absent : w.store.hashes.get? (key ns id) = none) :
    ((store ns).get nowMs id).run w =
      (.ok none, { w with store := w.store.heard [.fetch (key ns id)] }) := by
  have none : w.store.cellsAt (key ns id) = [] := by
    rw [HashServer.cellsAt, HashServer.fieldsAt_of_none absent]
    rfl
  simp only [store]
  rw [Action.run_bind_ok (run_attempt (HashServer.fetch_calm calm _)), none]
  rfl

theorem run_get_held (calm : w.store.Calm)
    (held : w.store.hashes.get? (key ns id) = some (Fields.ofRecord r))
    (kept : Fields.IsPersistable r) (conveys : w.store.Conveys r.label) :
    ((store ns).get nowMs id).run w =
      (.ok (some (Fields.reread r)), { w with store := w.store.heard [.fetch (key ns id)] }) := by
  have holds := HashServer.holds_cellsAt held conveys
  have read : Fields.recordOfCells (w.store.cellsAt (key ns id)) =
      .ok (some ⟨Fields.reread r, none⟩) := by
    rw [holds.recordOfCells_eq (Fields.nodup_ofRecord r)]
    exact Fields.toRecord_ofRecord kept
  simp only [store]
  rw [Action.run_bind_ok (run_attempt (HashServer.fetch_calm calm _))]
  cases cells : w.store.cellsAt (key ns id) with
  | nil =>
      rw [cells] at holds
      cases holds
  | cons cell rest =>
      rw [cells] at read
      simp only [read]
      rfl

section SetAccessed

/-- The step that writes the time of access over what a key holds. -/
def noteSteps (key : Text) (accessedMs ttlSeconds : Int) : Step (Except Json.WriteError Unit) := do
  call .multi
  if !Numeral.isWritable accessedMs then return .error .tooLong
  HashServer.commit key ⟨[(Fields.accessedField, Numeral.write accessedMs)]⟩ ttlSeconds
  return .ok ()

variable {s : HashServer} {k : Text}

/-- The key is watched and asked for in a pipeline, and the rest depends on the answer. -/
theorem setAccessedSteps_eq (calm : s.Calm) (k : Text) (accessed ttl : Int) :
    setAccessedSteps k accessed ttl s =
      (if !(s.fieldsAt k).isEmpty then noteSteps k accessed ttl else return .ok () :
        Step (Except Json.WriteError Unit)) (s.heard [.pipeline, .watch k, .exists k]) := by
  rw [setAccessedSteps, HashServer.bind_ok (HashServer.call_calm calm _),
    HashServer.bind_ok (HashServer.call_calm (calm.heard _) _),
    HashServer.bind_ok (HashServer.fieldsExist_calm ((calm.heard _).heard _) _),
    HashServer.heard_heard, HashServer.heard_heard]
  rfl

theorem run_setAccessed_absent (calm : w.store.Calm)
    (absent : w.store.hashes.get? (key ns id) = none) :
    ((store ns).setAccessed nowMs id accessed ttl).run w = (.ok (), { w with
      store := w.store.heard [.pipeline, .watch (key ns id), .exists (key ns id)] }) := by
  have steps : setAccessedSteps (key ns id) accessed ttl w.store =
      (.ok (.ok ()), w.store.heard [.pipeline, .watch (key ns id), .exists (key ns id)]) := by
    rw [setAccessedSteps_eq calm, HashServer.fieldsAt_of_none absent]
    rfl
  simp only [store]
  exact Action.run_bind_ok (run_attempt steps)

theorem setAccessedSteps_held (calm : s.Calm) (held : s.hashes.get? k = some (Fields.ofRecord r))
    (accessed ttl : Int) :
    setAccessedSteps k accessed ttl s =
      noteSteps k accessed ttl (s.heard [.pipeline, .watch k, .exists k]) := by
  rw [setAccessedSteps_eq calm, HashServer.fieldsAt_of_some held]
  rfl

theorem run_setAccessed_held (calm : w.store.Calm)
    (held : w.store.hashes.get? (key ns id) = some (Fields.ofRecord r))
    (writable : Numeral.isWritable accessed) :
    let noted : Fields := ⟨[(Fields.accessedField, Numeral.write accessed)]⟩
    ((store ns).setAccessed nowMs id accessed ttl).run w = (.ok (), { w with
      store := (w.store.heard (setAccessedCalls (key ns id) noted ttl)).write (key ns id)
        noted }) := by
  intro noted
  have steps : setAccessedSteps (key ns id) accessed ttl w.store = (.ok (.ok ()),
      (w.store.heard (setAccessedCalls (key ns id) noted ttl)).write (key ns id) noted) := by
    rw [setAccessedSteps_held calm held, noteSteps,
      HashServer.bind_ok (HashServer.call_calm (calm.heard _) _)]
    simp only [writable, Bool.not_true, Bool.false_eq_true, if_false]
    refine (HashServer.bind_ok (HashServer.commit_calm ((calm.heard _).heard _) _ _ _)).trans ?_
    rw [HashServer.heard_heard, HashServer.heard_heard]
    rfl
  simp only [store]
  exact Action.run_bind_ok (run_attempt steps)

theorem run_setAccessed_unwritable (calm : w.store.Calm)
    (held : w.store.hashes.get? (key ns id) = some (Fields.ofRecord r))
    (unwritable : Numeral.isWritable accessed = false) :
    ((store ns).setAccessed nowMs id accessed ttl).run w = (.error (.unwritable .tooLong), { w with
      store := w.store.heard
        [.pipeline, .watch (key ns id), .exists (key ns id), .multi] }) := by
  have steps : setAccessedSteps (key ns id) accessed ttl w.store = (.ok (.error .tooLong),
      w.store.heard [.pipeline, .watch (key ns id), .exists (key ns id), .multi]) := by
    rw [setAccessedSteps_held calm held, noteSteps,
      HashServer.bind_ok (HashServer.call_calm (calm.heard _) _), HashServer.heard_heard]
    simp only [unwritable, Bool.not_false, if_true]
    rfl
  simp only [store]
  exact Action.run_bind_ok (run_attempt steps)

end SetAccessed

end Remote

end BearerToken

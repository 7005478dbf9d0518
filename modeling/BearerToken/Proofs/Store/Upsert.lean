import Mathlib
import BearerToken.Proofs.Service.Memory
import BearerToken.Proofs.Store.Remote

/-!
# A record written over another

The server lays the fields of a record over those that it holds, and a record has fields of a
principal only if it has one. So what comes back after a write is the record with the principal of
an earlier one where it has none itself, and with the earlier scope where its principal has none.
The store in memory replaces the record. The two agree just if the record names a principal wherever
the earlier one did, and a scope wherever that had one.
-/

namespace BearerToken

namespace Principal

/-- The principal of a record that is written over another. -/
def overlay (before : Option Principal) : Option Principal → Option Principal
  | none => before
  | some p => some { p with scope := p.scope <|> before.bind Principal.scope }

/-- Nothing of an earlier principal is left just if there is a new one, with a scope if the earlier
one had a scope. -/
theorem overlay_eq_self_iff {before after : Option Principal} :
    overlay before after = after ↔
      ∀ p, before = some p → ∃ q, after = some q ∧ (p.scope.isSome → q.scope.isSome) := by
  cases before with
  | none =>
      obtain _ | ⟨kind, entity, _ | scope⟩ := after
      · simp [overlay]
      · simp [overlay]
      · simp [overlay]
  | some p =>
      obtain _ | ⟨kind, entity, _ | scope⟩ := after
      · simp [overlay]
      · cases scope : p.scope with
        | none => simp [overlay, scope]
        | some scope => simp [overlay, scope]
      · simp [overlay]

end Principal

namespace Record

/-- The record that the server holds once a record is written over what it held. -/
def onto (r : Record) (before : Option Record) : Record :=
  { r with principal := Principal.overlay (before.bind Record.principal) r.principal }

variable {r : Record} {before : Option Record}

theorem onto_eq_self
    (same : Principal.overlay (before.bind Record.principal) r.principal = r.principal) :
    r.onto before = r := by
  rw [onto, same]

theorem onto_none (r : Record) : r.onto none = r :=
  onto_eq_self (Principal.overlay_eq_self_iff.mpr (by simp))

end Record

namespace Fields

theorem empty_merge (r : Record) : Table.merge .empty (ofRecord r) = ofRecord r :=
  congrArg Table.mk (Table.ofList_entries (nodup_ofRecord r))

theorem merge_ofRecord (r₀ r : Record) :
    (ofRecord r₀).merge (ofRecord r) = ofRecord (r.onto (some r₀)) := by
  obtain ⟨id₀, label₀, created₀, accessed₀, _ | ⟨kind₀, entity₀, _ | scope₀⟩, state₀⟩ := r₀ <;>
  obtain ⟨id, label, created, accessed, _ | ⟨kind, entity, _ | scope⟩, state⟩ := r <;>
  simp [Table.merge, Table.set, Table.insertAt, ofRecord, ofPrincipal, Record.onto,
    Principal.overlay, uuidField, typeField, createdField, accessedField, stateField,
    principalField, entityField, applicationField]

theorem merge_noted (r : Record) (accessed : Int) :
    (ofRecord r).merge ⟨[(accessedField, Numeral.write accessed)]⟩ =
      ofRecord { r with accessed := accessed } := rfl

end Fields

/-- Writes a record and reads it back. -/
def Store.putGet {σ : Type} (s : Store σ) (nowMs : Int) (id : TokenId) (r : Record) (ttl t : Int) :
    Action σ (Option Record) := do
  s.put nowMs id r ttl
  s.get t id

/-- A call that writes at an identifier. -/
inductive Write where
  | put (r : Record) (ttl : Int)
  | setAccessed (accessed ttl : Int)

namespace Write

variable {σ : Type}

def perform (s : Store σ) (id : TokenId) (nowMs : Int) : Write → Action σ Unit
  | .put r ttl => s.put nowMs id r ttl
  | .setAccessed accessed ttl => s.setAccessed nowMs id accessed ttl

/-- The world after some writes, each with its time, whether they succeed or fail. -/
def after (s : Store σ) (id : TokenId) (writes : List (Int × Write)) (w : World σ) : World σ :=
  writes.foldl (fun w write => ((write.2.perform s id write.1).run w).2) w

/-- What the server holds after a write of what it held before. -/
def leave (before : Option Record) : Write → Option Record
  | .put r _ => if (Fields.fault? r).isNone then some (r.onto before) else before
  | .setAccessed accessed _ =>
    if Numeral.isWritable accessed then before.map ({ · with accessed }) else before

/-- What the server holds after some writes where it held nothing. -/
def left (writes : List (Int × Write)) : Option Record :=
  writes.foldl (fun before write => leave before write.2) none

end Write

namespace Remote

variable {ns : Text} {id : TokenId} {r : Record} {nowMs t ttl : Int} {before : Option Record}
  {w : World HashServer}

/-- What is under a key once a record is written there. -/
theorem merge_fieldsAt {s : HashServer} {key : Text}
    (held : s.hashes.get? key = before.map Fields.ofRecord) (r : Record) :
    (s.fieldsAt key).merge (Fields.ofRecord r) = Fields.ofRecord (r.onto before) := by
  cases before with
  | none => rw [HashServer.fieldsAt_of_none held, Fields.empty_merge, Record.onto_none]
  | some r₀ => rw [HashServer.fieldsAt_of_some held, Fields.merge_ofRecord]

/-- The server is calm, gives bytes or does not, and holds this at the identifier. -/
structure HoldsAt (ns : Text) (id : TokenId) (bytes : Bool) (x : Option Record) (s : HashServer) :
    Prop where
  calm : s.Calm
  gives : s.givesBytes = bytes
  held : s.hashes.get? (key ns id) = x.map Fields.ofRecord

namespace HoldsAt

variable {bytes : Bool} {s : HashServer} {fields : Fields}

theorem heard (holds : HoldsAt ns id bytes before s) (calls : List Call) :
    HoldsAt ns id bytes before (s.heard calls) := ⟨holds.calm, holds.gives, holds.held⟩

theorem write (holds : HoldsAt ns id bytes before s)
    (merged : (s.fieldsAt (key ns id)).merge fields = Fields.ofRecord r) (calls : List Call) :
    HoldsAt ns id bytes (some r) ((s.heard calls).write (key ns id) fields) where
  calm := holds.calm
  gives := holds.gives
  held := by
    rw [HashServer.get?_write, if_pos rfl]
    exact congrArg some merged

/-- What is under other keys stays as it is. -/
theorem write_other {other : TokenId} (holds : HoldsAt ns other bytes before s)
    (apart : id ≠ other) (calls : List Call) (fields : Fields) :
    HoldsAt ns other bytes before ((s.heard calls).write (key ns id) fields) where
  calm := holds.calm
  gives := holds.gives
  held := by
    rw [HashServer.get?_write, if_neg fun same => apart (key_injective same)]
    exact holds.held

theorem perform (holds : HoldsAt ns id bytes before w.store) (write : Write) (nowMs : Int) :
    HoldsAt ns id bytes (write.leave before)
      ((write.perform (store ns) id nowMs).run w).2.store := by
  cases write with
  | put r ttl =>
      cases fault : Fields.fault? r with
      | none =>
          rw [Write.perform, run_put holds.calm fault, Write.leave, fault]
          exact holds.write (merge_fieldsAt holds.held r) _
      | some cause =>
          rw [Write.perform, run_put_unwritable holds.calm fault, Write.leave, fault]
          exact holds.heard _
  | setAccessed accessed ttl =>
      cases before with
      | none =>
          rw [Write.perform, run_setAccessed_absent holds.calm holds.held, Write.leave,
            Option.map_none, ite_self]
          exact holds.heard _
      | some r₀ =>
          cases writable : Numeral.isWritable accessed with
          | true =>
              rw [Write.perform, run_setAccessed_held holds.calm holds.held writable, Write.leave,
                writable]
              refine holds.write ?_ _
              rw [HashServer.fieldsAt_of_some holds.held]
              exact Fields.merge_noted r₀ accessed
          | false =>
              rw [Write.perform, run_setAccessed_unwritable holds.calm holds.held writable,
                Write.leave, writable]
              exact holds.heard _

theorem after (holds : HoldsAt ns id bytes before w.store) (writes : List (Int × Write)) :
    HoldsAt ns id bytes (writes.foldl (fun before write => write.2.leave before) before)
      (Write.after (store ns) id writes w).store := by
  induction writes generalizing w before with
  | nil => exact holds
  | cons write rest ih => exact ih (holds.perform write.2 write.1)

theorem result_putGet (holds : HoldsAt ns id bytes before w.store)
    (kept : Fields.IsPersistable r) (conveys : w.store.Conveys r.label) (nowMs ttl t : Int) :
    (((store ns).putGet nowMs id r ttl t).run w).1 = .ok (some (Fields.reread (r.onto before))) := by
  have written := holds.write (merge_fieldsAt holds.held r)
    (putCalls (key ns id) (Fields.ofRecord r) ttl)
  have again : Fields.IsPersistable (r.onto before) := ⟨kept.labelled, kept.writable⟩
  rw [Store.putGet, Action.run_bind_ok (run_put holds.calm kept.writable)]
  exact congrArg Prod.fst (run_get_held (w := ⟨_, _⟩) written.calm written.held again conveys)

end HoldsAt

end Remote

namespace Memory

variable {r : Record} {nowMs t ttl : Int}

theorem result_putGet (kept : Fields.IsPersistable r) (before : t < deadline nowMs ttl)
    (w : World Memory) (id : TokenId) :
    ((store.putGet nowMs id r ttl t).run w).1 = .ok (some (Fields.reread r)) := by
  have live : (w.store.put nowMs id (Fields.ofRecord r) ttl).live? t id =
      some (Fields.ofRecord r) := by
    rw [put, live?_set, if_pos rfl]
    exact if_pos (decide_eq_true before)
  rw [Store.putGet, Action.run_bind_ok (run_put kept.writable ttl)]
  exact congrArg Prod.fst (run_get_live live kept)

end Memory

namespace Remote

variable {ns : Text} {id : TokenId} {r : Record} {nowMs t ttl : Int}

/-- After any writes at its identifier, a record that is written to the server is read back with what
they left of a principal that it lacks; the store in memory gives the record. They give the same just
if the record lacks neither a principal nor a scope that is left. -/
theorem putGet_after_writes {w : World HashServer} (calm : w.store.Calm)
    (new : w.store.hashes.get? (key ns id) = none) (writes : List (Int × Write))
    (kept : Fields.IsPersistable r) (conveys : w.store.Conveys r.label)
    (within : t < Memory.deadline nowMs ttl) (m : World Memory) :
    let before := Write.left writes
    let remote := (((store ns).putGet nowMs id r ttl t).run (Write.after (store ns) id writes w)).1
    let memory := ((Memory.store.putGet nowMs id r ttl t).run m).1
    remote = .ok (some (Fields.reread (r.onto before))) ∧
      memory = .ok (some (Fields.reread r)) ∧
      (remote = memory ↔ ∀ p, before.bind Record.principal = some p →
        ∃ q, r.principal = some q ∧ (p.scope.isSome → q.scope.isSome)) := by
  intro before remote memory
  have holds : HoldsAt ns id w.store.givesBytes before
      (Write.after (store ns) id writes w).store :=
    HoldsAt.after ⟨calm, rfl, new⟩ writes
  have conveyed : (Write.after (store ns) id writes w).store.Conveys r.label :=
    fun bytes => conveys (holds.gives.symm.trans bytes)
  have there : remote = .ok (some (Fields.reread (r.onto before))) :=
    holds.result_putGet kept conveyed nowMs ttl t
  have here : memory = .ok (some (Fields.reread r)) := Memory.result_putGet kept within m id
  refine ⟨there, here, ?_⟩
  rw [there, here, ← Principal.overlay_eq_self_iff]
  constructor
  · intro same
    exact congrArg Record.principal (Option.some.inj (Except.ok.inj same))
  · intro same
    rw [Record.onto_eq_self same]

/-- A principal without a scope takes over the scope of the one before it. -/
theorem putGet_after_writes_scope :
    let u : Uuid := ⟨0x018bcfe5680071238123456789abcdef, by decide⟩
    let id : TokenId := TokenId.generate 5 ⟨0, 0⟩
    let r₀ : Record := .issued id none (some ⟨.applicationUser, u, some u⟩) .emptyObject
    let r : Record := .issued id (some "L") (some ⟨.adminUser, u, none⟩) .emptyObject
    let w : World HashServer := ⟨.empty, []⟩
    let writes : List (Int × Write) := [(5, .put r₀ 60), (6, .setAccessed 6 60)]
    (((store "tokens").putGet 7 id r 60 8).run (Write.after (store "tokens") id writes w)).1 =
      .ok (some (Fields.reread { r with principal := some ⟨.adminUser, u, some u⟩ })) := by
  intro u id r₀ r w writes
  have kept : Fields.IsPersistable r := ⟨by decide, by decide +kernel⟩
  have left : Write.left writes = some { r₀ with accessed := 6 } := by
    have writable : Fields.fault? r₀ = none := by decide +kernel
    have number : Numeral.isWritable 6 = true := by decide +kernel
    simp [Write.left, Write.leave, writes, writable, number, Record.onto_none]
  obtain ⟨remote, -⟩ := putGet_after_writes (w := w) rfl rfl writes kept
    (HashServer.conveys_ofString _ _) (by decide : 8 < Memory.deadline 7 60) ⟨.empty, []⟩
  rw [left] at remote
  exact remote

/-- A record without a principal comes back with the principal of the record that it was to replace. -/
theorem putGet_ne_after_principal :
    let u : Uuid := ⟨0x018bcfe5680071238123456789abcdef, by decide⟩
    let id : TokenId := TokenId.generate 5 ⟨0, 0⟩
    let r₀ : Record := .issued id none (some ⟨.adminUser, u, none⟩) .emptyObject
    let r : Record := .issued id none none .emptyObject
    let w : World HashServer := ⟨.empty, []⟩
    (((store "tokens").putGet 7 id r 60 8).run
        (Write.after (store "tokens") id [(5, .put r₀ 60)] w)).1 ≠
      ((Memory.store.putGet 7 id r 60 8).run ⟨.empty, []⟩).1 := by
  intro u id r₀ r w
  have kept : Fields.IsPersistable r := ⟨by decide, by decide +kernel⟩
  have writable : Fields.fault? r₀ = none := by decide +kernel
  have holds : HoldsAt "tokens" id false (some r₀) (Write.after (store "tokens") id
      [(5, .put r₀ 60)] w).store := by
    have empty : HoldsAt "tokens" id false none w.store := ⟨rfl, rfl, rfl⟩
    simpa [Write.leave, writable, Record.onto_none] using empty.after [(5, .put r₀ 60)]
  have remote := holds.result_putGet kept (HashServer.conveys_ofString _ _) 7 60 8
  have memory := Memory.result_putGet kept (by decide : 8 < Memory.deadline 7 60) ⟨.empty, []⟩ id
  rw [remote, memory]
  intro same
  cases congrArg Record.principal (Option.some.inj (Except.ok.inj same))

end Remote

end BearerToken

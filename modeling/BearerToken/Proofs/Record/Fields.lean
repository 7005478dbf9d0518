import Mathlib
import BearerToken.Proofs.Json.RoundTrip
import BearerToken.Proofs.Uuid
import BearerToken.Record.Fields

/-!
# Records and their fields

A record that can be written is read back from its fields, with its state as it comes back from its
text. A change of the time of last access in the fields is that change in the record.
-/

namespace BearerToken

/-- The record with its state in normal form; records that say the same agree on it. -/
def Record.normal (r : Record) : Record := { r with state := r.state.normal }

namespace Fields

theorem get?_uuid (r : Record) : (ofRecord r).get? uuidField = some (r.id.canonical : Text) := rfl

theorem get?_type (r : Record) : (ofRecord r).get? typeField = some r.label := rfl

theorem get?_created (r : Record) :
    (ofRecord r).get? createdField = some (Numeral.write r.created : Text) := rfl

theorem get?_accessed (r : Record) :
    (ofRecord r).get? accessedField = some (Numeral.write r.accessed : Text) := rfl

theorem get?_state (r : Record) :
    (ofRecord r).get? stateField = some (stateText r.state : Text) := rfl

theorem set_accessed (r : Record) (accessed : Int) :
    (ofRecord r).set accessedField (Numeral.write accessed) =
      ofRecord { r with accessed := accessed } := rfl

theorem filled?_eq_some {fields : Fields} {name t : Text} (held : fields.get? name = some t)
    (nonempty : t ≠ []) : fields.filled? name = some t := by
  simp [filled?, held, nonempty]

theorem canonical_ne_nil (u : Uuid) : (u.canonical : Text) ≠ [] :=
  Text.ofList_ne_nil (by simp [Uuid.canonicalChars])

theorem write_ne_nil (n : Int) : (Numeral.write n : Text) ≠ [] := by
  apply Text.ofList_ne_nil
  cases n with
  | ofNat n => exact Numeral.digits_ne_nil n
  | negSucc n => exact List.cons_ne_nil _ _

theorem readUuid_canonical (u : Uuid) : readUuid u.canonical = .ok u := by
  rw [readUuid, Uuid.parse_canonical]

theorem name_ne_nil (kind : PrincipalKind) : (kind.name : Text) ≠ [] := by
  cases kind <;> decide

theorem stateText_ne_nil (state : Json.Value) : (stateText state : Text) ≠ [] := by
  obtain ⟨c, rest, spelled, -⟩ := Json.opens_written (keptState state)
  have text : Text.ofString (stateText state) = Json.written (keptState state) :=
    Text.ofString_ofList _
  rw [text, spelled]
  exact List.cons_ne_nil _ _

/-- A principal is read from fields that name it as it is written. -/
theorem readPrincipal_of_filled {fields : Fields} {p : Principal}
    (named : fields.filled? principalField = some (p.kind.name : Text))
    (entity : fields.filled? entityField = some (p.id.canonical : Text))
    (scope : fields.filled? applicationField = p.scope.map fun u => (u.canonical : Text)) :
    readPrincipal fields = .ok (some p, none) := by
  obtain ⟨kind, id, owner⟩ := p
  have known : PrincipalKind.ofName? (Text.lower kind.name) = some kind := by
    cases kind <;> decide
  rw [readPrincipal, named]
  simp only [known, entity, readUuid_canonical, bind, Except.bind]
  cases owner with
  | none =>
      simp only [scope, Option.map_none]
      rfl
  | some owner =>
      simp only [scope, Option.map_some, readUuid_canonical]
      rfl

theorem readPrincipal_ofRecord (r : Record) :
    readPrincipal (ofRecord r) = .ok (r.principal, none) := by
  obtain ⟨id, label, created, accessed, principal, state⟩ := r
  obtain _ | ⟨kind, entity, scope⟩ := principal
  · rfl
  · refine readPrincipal_of_filled (filled?_eq_some rfl (name_ne_nil kind))
      (filled?_eq_some rfl (canonical_ne_nil entity)) ?_
    cases scope with
    | none => rfl
    | some scope => exact filled?_eq_some rfl (canonical_ne_nil scope)

/-- The record that comes back when a record is written and read. -/
def reread (r : Record) : Record := { r with state := (keptState r.state).reread }

theorem fault_int [Limits] {n : Int} :
    Json.fault? Limits.depth (.int n) = none ↔ Numeral.isWritable n := by
  rw [Json.fault?]
  split
  · simp [*]
  · simp [*]

theorem fault?_eq_none_iff [Limits] {r : Record} :
    fault? r = none ↔ Numeral.isWritable r.created ∧ Numeral.isWritable r.accessed ∧
      Json.fault? Limits.depth (keptState r.state) = none := by
  simp only [fault?, List.findSome?_eq_none_iff, List.mem_cons, List.not_mem_nil, or_false,
    forall_eq_or_imp, forall_eq, fault_int]

/-- A record that can be kept as its fields and comes back from them. -/
structure IsPersistable [Limits] (r : Record) : Prop where
  labelled : r.label ≠ []
  writable : fault? r = none

theorem readInt_write [Limits] {n : Int} (writable : Numeral.isWritable n) :
    readInt (Numeral.write n) = .ok n := by
  rw [readInt, Numeral.read_write writable]

theorem readState_ofRecord [Limits] {r : Record} (kept : IsPersistable r) :
    readState (ofRecord r) = .ok (keptState r.state).reread := by
  obtain ⟨-, -, writable⟩ := fault?_eq_none_iff.mp kept.writable
  have held := filled?_eq_some (get?_state r) (stateText_ne_nil r.state)
  rw [readState, held]
  simp only [stateText, Json.read_write writable]

/-- A record is read back from the fields that persist it. -/
theorem toRecord_ofRecord [Limits] {r : Record} (kept : IsPersistable r) :
    toRecord (ofRecord r) = .ok (some ⟨reread r, none⟩) := by
  obtain ⟨created, accessed, -⟩ := fault?_eq_none_iff.mp kept.writable
  rw [toRecord, filled?_eq_some (get?_uuid r) (canonical_ne_nil r.id.uuid),
    filled?_eq_some (get?_type r) kept.labelled,
    filled?_eq_some (get?_created r) (write_ne_nil _),
    filled?_eq_some (get?_accessed r) (write_ne_nil _)]
  simp only [readState_ofRecord kept, readId, TokenId.parse_canonical, readInt_write created,
    readInt_write accessed, readPrincipal_ofRecord, bind, Except.bind]
  rfl

/-- The state of a record that was read is kept as it is. -/
theorem keptState_reread (v : Json.Value) :
    keptState (keptState v).reread = (keptState v).reread := by
  cases void : v.isVoid with
  | true =>
      rw [show keptState v = .emptyObject by rw [keptState, if_pos void]]
      rfl
  | false =>
      have kept : keptState v = v := by
        rw [keptState, void]
        rfl
      rw [kept, keptState, Json.Value.isVoid_reread void]
      rfl

/-- A record that was read can be kept again. -/
theorem IsPersistable.reread [Limits] {r : Record} (kept : IsPersistable r) :
    IsPersistable (reread r) where
  labelled := kept.labelled
  writable := by
    obtain ⟨created, accessed, writable⟩ := fault?_eq_none_iff.mp kept.writable
    refine fault?_eq_none_iff.mpr ⟨created, accessed, ?_⟩
    rw [Fields.reread, keptState_reread]
    exact Json.fault_reread writable

theorem IsPersistable.withAccessed [Limits] {r : Record} (kept : IsPersistable r) {accessed : Int}
    (writable : Numeral.isWritable accessed) : IsPersistable { r with accessed := accessed } where
  labelled := kept.labelled
  writable := by
    obtain ⟨created, -, state⟩ := fault?_eq_none_iff.mp kept.writable
    exact fault?_eq_none_iff.mpr ⟨created, writable, state⟩

theorem fault?_of_accessed [Limits] {r : Record} (created : Numeral.isWritable r.created)
    (unwritable : Numeral.isWritable r.accessed = false) : fault? r = some .tooLong := by
  have first : Json.fault? Limits.depth (.int r.created) = none := fault_int.mpr created
  have second : Json.fault? Limits.depth (.int r.accessed) = some .tooLong := by
    rw [Json.fault?, unwritable]
    rfl
  rw [fault?, List.findSome?_cons, first, List.findSome?_cons, second]

theorem persist_eq [Limits] {r : Record} (writable : fault? r = none) :
    persist r = .ok (ofRecord r) := by
  rw [persist, writable]

/-- Keeping a record that was read changes no more than the order of its state's members. -/
theorem normal_reread_reread (r : Record) : (reread (reread r)).normal = (reread r).normal := by
  simp only [reread, Record.normal, keptState_reread, Json.Value.normal_reread_reread]

end Fields

end BearerToken

import Mathlib
import BearerToken.Proofs.Json.Bounds
import BearerToken.Proofs.Record.Fields

/-!
# Legible fields

What a store hands back need not be what a record was written as. Fields that are not complete are
no record, and complete ones are a record just if all that it is made of can be read. A record that
has been read can be written again.
-/

namespace BearerToken.Fields

variable {fields : Fields}

/-- The required fields are there, and none of them is empty. -/
def IsComplete (fields : Fields) : Prop := ∀ name ∈ requiredFields, (fields.filled? name).isSome

/-- The field is missing or empty, or it can be read. -/
def Reads {ε α : Type} (fields : Fields) (name : Text) (read : Text → Except ε α) : Prop :=
  ∀ t, fields.filled? name = some t → ∃ x, read t = .ok x

/-- The kind of the principal, if it is a known one. -/
def kind? (fields : Fields) : Option PrincipalKind :=
  (fields.filled? principalField).bind fun raw => PrincipalKind.ofName? (Text.lower raw)

/-- All that a record is made of can be read. An entity is read for a principal of a known kind
only, and a scope for an entity only. -/
structure IsLegible [Limits] (fields : Fields) : Prop where
  state : fields.Reads stateField Json.read
  id : fields.Reads uuidField TokenId.parse
  created : fields.Reads createdField (Numeral.read 10)
  accessed : fields.Reads accessedField (Numeral.read 10)
  entity : fields.kind?.isSome → fields.Reads entityField Uuid.parse
  scope : fields.kind?.isSome → (fields.filled? entityField).isSome →
    fields.Reads applicationField Uuid.parse

theorem isComplete_iff :
    fields.IsComplete ↔ (∃ t, fields.filled? uuidField = some t) ∧
      (∃ t, fields.filled? typeField = some t) ∧ (∃ t, fields.filled? createdField = some t) ∧
      ∃ t, fields.filled? accessedField = some t := by
  simp [IsComplete, requiredFields, Option.isSome_iff_exists]

section Parts

theorem readId_eq_ok_iff {t : Text} {id : TokenId} :
    readId t = .ok id ↔ TokenId.parse t = .ok id := by
  rw [readId]
  cases TokenId.parse t <;> simp

theorem readUuid_eq_ok_iff {t : Text} {u : Uuid} : readUuid t = .ok u ↔ Uuid.parse t = .ok u := by
  rw [readUuid]
  cases Uuid.parse t <;> simp

theorem readInt_eq_ok_iff [Limits] {t : Text} {n : Int} :
    readInt t = .ok n ↔ Numeral.read 10 t = .ok n := by
  rw [readInt]
  cases Numeral.read 10 t <;> simp

theorem reads_of_missing {ε α : Type} {name : Text} (missing : fields.filled? name = none)
    (read : Text → Except ε α) : fields.Reads name read := by
  intro t filled
  rw [missing] at filled
  cases filled

theorem reads_of_filled {ε α : Type} {name t : Text} {read : Text → Except ε α} {x : α}
    (filled : fields.filled? name = some t) (same : read t = .ok x) : fields.Reads name read := by
  intro t' filled'
  rw [filled] at filled'
  cases filled'
  exact ⟨x, same⟩

theorem ne_nil_of_filled {name t : Text} (filled : fields.filled? name = some t) : t ≠ [] := by
  rintro rfl
  simpa using (Option.filter_eq_some_iff.mp filled).2

/-- A state that is read is the empty object, or comes from its field. -/
theorem of_readState [Limits] {v : Json.Value} (reads : readState fields = .ok v) :
    fields.Reads stateField Json.read ∧ (v = .emptyObject ∨ ∃ t, Json.read t = .ok v) := by
  rw [readState] at reads
  split at reads
  · next missing =>
    cases reads
    exact ⟨reads_of_missing missing _, .inl rfl⟩
  · next text filled =>
    split at reads
    · next state read =>
      cases reads
      exact ⟨reads_of_filled filled read, .inr ⟨text, read⟩⟩
    · cases reads

theorem exists_readState [Limits] (legible : fields.Reads stateField Json.read) :
    ∃ v, readState fields = .ok v := by
  rw [readState]
  split
  · exact ⟨_, rfl⟩
  · next text filled =>
    obtain ⟨state, read⟩ := legible text filled
    rw [read]
    exact ⟨state, rfl⟩

theorem kind?_of_filled {raw : Text} (filled : fields.filled? principalField = some raw) :
    fields.kind? = PrincipalKind.ofName? (Text.lower raw) := by
  rw [kind?, filled, Option.bind_some]

theorem of_readPrincipal {p : Option Principal × Option Text}
    (reads : readPrincipal fields = .ok p) :
    (fields.kind?.isSome → fields.Reads entityField Uuid.parse) ∧
      (fields.kind?.isSome → (fields.filled? entityField).isSome →
        fields.Reads applicationField Uuid.parse) := by
  rw [readPrincipal] at reads
  split at reads
  · next missing => simp [kind?, missing]
  · next raw named =>
    rw [kind?_of_filled named]
    split at reads
    · next unknown => simp [unknown]
    · split at reads
      · next missing =>
        exact ⟨fun _ => reads_of_missing missing _, fun _ filled => by simp [missing] at filled⟩
      · next entity filled =>
        obtain ⟨id, read, reads⟩ := exists_of_bind_eq_ok reads
        refine ⟨fun _ => reads_of_filled filled (readUuid_eq_ok_iff.mp read), fun _ _ => ?_⟩
        cases owner : fields.filled? applicationField with
        | none => exact reads_of_missing owner _
        | some application =>
            simp only [owner] at reads
            obtain ⟨scope, mapped, -⟩ := exists_of_bind_eq_ok reads
            obtain ⟨u, read, -⟩ := exists_of_map_eq_ok mapped
            exact reads_of_filled owner (readUuid_eq_ok_iff.mp read)

theorem exists_readPrincipal (entity : fields.kind?.isSome → fields.Reads entityField Uuid.parse)
    (scope : fields.kind?.isSome → (fields.filled? entityField).isSome →
      fields.Reads applicationField Uuid.parse) :
    ∃ p, readPrincipal fields = .ok p := by
  rw [readPrincipal]
  split
  · exact ⟨_, rfl⟩
  · next raw named =>
    rw [kind?_of_filled named] at entity scope
    split
    · exact ⟨_, rfl⟩
    · next kind known =>
      rw [known] at entity scope
      split
      · exact ⟨_, rfl⟩
      · next t filled =>
        obtain ⟨u, read⟩ := entity rfl t filled
        rw [readUuid_eq_ok_iff.mpr read]
        cases owner : fields.filled? applicationField with
        | none => exact ⟨_, rfl⟩
        | some application =>
            obtain ⟨v, read⟩ := scope rfl (by rw [filled]; rfl) application owner
            simp only [readUuid_eq_ok_iff.mpr read]
            exact ⟨_, rfl⟩

end Parts

section Record

variable [Limits]

/-- Fields that are not complete are no record, and only these are none. -/
theorem toRecord_eq_none_iff : toRecord fields = .ok none ↔ ¬fields.IsComplete := by
  rw [toRecord]
  split
  · next uuid label created accessed =>
    have complete : fields.IsComplete :=
      isComplete_iff.mpr ⟨⟨_, uuid⟩, ⟨_, label⟩, ⟨_, created⟩, ⟨_, accessed⟩⟩
    refine ⟨fun none => ?_, fun incomplete => absurd complete incomplete⟩
    obtain ⟨state, -, none⟩ := exists_of_bind_eq_ok none
    obtain ⟨id, -, none⟩ := exists_of_bind_eq_ok none
    obtain ⟨created, -, none⟩ := exists_of_bind_eq_ok none
    obtain ⟨accessed, -, none⟩ := exists_of_bind_eq_ok none
    obtain ⟨principal, -, none⟩ := exists_of_bind_eq_ok none
    cases none
  · next missing =>
    refine ⟨fun _ complete => ?_, fun _ => rfl⟩
    obtain ⟨⟨_, uuid⟩, ⟨_, label⟩, ⟨_, created⟩, ⟨_, accessed⟩⟩ := isComplete_iff.mp complete
    exact missing _ _ _ _ uuid label created accessed

/-- What is known of a record that has been read: its parts have been read, each from its field. -/
structure IsRead (fields : Fields) (r : Record) : Prop where
  legible : fields.IsLegible
  labelled : r.label ≠ []
  created : ∃ t, Numeral.read 10 t = .ok r.created
  accessed : ∃ t, Numeral.read 10 t = .ok r.accessed
  state : r.state = .emptyObject ∨ ∃ t, Json.read t = .ok r.state

theorem isRead_of_toRecord {reading : Reading} (reads : toRecord fields = .ok (some reading)) :
    IsRead fields reading.record := by
  rw [toRecord] at reads
  split at reads
  · next uuid label created accessed uuid_filled label_filled created_filled accessed_filled =>
    obtain ⟨state, state_read, reads⟩ := exists_of_bind_eq_ok reads
    obtain ⟨id, id_read, reads⟩ := exists_of_bind_eq_ok reads
    obtain ⟨made, created_read, reads⟩ := exists_of_bind_eq_ok reads
    obtain ⟨used, accessed_read, reads⟩ := exists_of_bind_eq_ok reads
    obtain ⟨⟨principal, unknown⟩, principal_read, reads⟩ := exists_of_bind_eq_ok reads
    cases reads
    obtain ⟨state_legible, state_source⟩ := of_readState state_read
    obtain ⟨entity_legible, scope_legible⟩ := of_readPrincipal principal_read
    rw [readId_eq_ok_iff] at id_read
    rw [readInt_eq_ok_iff] at created_read accessed_read
    refine ⟨?_, ne_nil_of_filled label_filled, ⟨_, created_read⟩, ⟨_, accessed_read⟩, state_source⟩
    exact ⟨state_legible, reads_of_filled uuid_filled id_read,
      reads_of_filled created_filled created_read, reads_of_filled accessed_filled accessed_read,
      entity_legible, scope_legible⟩
  · cases reads

theorem exists_toRecord (complete : fields.IsComplete) (legible : fields.IsLegible) :
    ∃ reading, toRecord fields = .ok (some reading) := by
  obtain ⟨⟨uuid, uuid_filled⟩, ⟨label, label_filled⟩, ⟨created, created_filled⟩,
    ⟨accessed, accessed_filled⟩⟩ := isComplete_iff.mp complete
  obtain ⟨state, state_read⟩ := exists_readState legible.state
  obtain ⟨id, id_read⟩ := legible.id uuid uuid_filled
  obtain ⟨made, created_read⟩ := legible.created created created_filled
  obtain ⟨used, accessed_read⟩ := legible.accessed accessed accessed_filled
  obtain ⟨⟨principal, unknown⟩, principal_read⟩ := exists_readPrincipal legible.entity legible.scope
  rw [← readId_eq_ok_iff] at id_read
  rw [← readInt_eq_ok_iff] at created_read accessed_read
  refine ⟨⟨⟨id, label, made, used, principal, state⟩, unknown⟩, ?_⟩
  rw [toRecord, uuid_filled, label_filled, created_filled, accessed_filled]
  simp only [state_read, id_read, created_read, accessed_read, principal_read]
  rfl

/-- Fields are an error just if they are complete and something in them cannot be read. -/
theorem toRecord_eq_error_iff :
    (∃ cause, toRecord fields = .error cause) ↔ fields.IsComplete ∧ ¬fields.IsLegible := by
  by_cases complete : fields.IsComplete
  · cases read : toRecord fields with
    | error cause =>
        refine iff_of_true ⟨cause, rfl⟩ ⟨complete, fun legible => ?_⟩
        obtain ⟨reading, made⟩ := exists_toRecord complete legible
        rw [made] at read
        cases read
    | ok found =>
        cases found with
        | none => exact absurd complete (toRecord_eq_none_iff.mp read)
        | some reading => simp [(isRead_of_toRecord read).legible]
  · simp [toRecord_eq_none_iff.mpr complete, complete]

/-- A record that has been read can be written, if there is room for an empty state. -/
theorem IsRead.isPersistable (room : 0 < Limits.depth) {r : Record} (read : IsRead fields r) :
    IsPersistable r where
  labelled := read.labelled
  writable := by
    obtain ⟨_, created⟩ := read.created
    obtain ⟨_, accessed⟩ := read.accessed
    have empty : Json.fault? Limits.depth .emptyObject = none := by
      obtain ⟨depth, same⟩ := Nat.exists_eq_add_of_lt room
      rw [same]
      exact Json.fault_object.mpr (by simp [Json.ordered])
    refine fault?_eq_none_iff.mpr
      ⟨Numeral.isWritable_of_read created, Numeral.isWritable_of_read accessed, ?_⟩
    rw [keptState]
    split
    · exact empty
    · obtain same | ⟨t, state⟩ := read.state
      · rw [same]
        exact empty
      · exact Json.fault_of_read state

end Record

section Cells

variable [Limits] {cells : List (Cell × Cell)}

/-- No record can be read from the cells, and they are not just incomplete: they are not all text,
or they are complete and something in them cannot be read. -/
def Corrupt (cells : List (Cell × Cell)) : Prop :=
  ∀ fields, ofCells cells = .ok fields → fields.IsComplete ∧ ¬fields.IsLegible

theorem recordOfCells_eq_error_iff :
    (∃ cause, recordOfCells cells = .error cause) ↔ Corrupt cells := by
  rw [recordOfCells, Corrupt]
  cases ofCells cells with
  | error cause => simp [bind, Except.bind]
  | ok fields => simpa [bind, Except.bind] using toRecord_eq_error_iff

/-- Where there is nothing, nothing is corrupt. -/
theorem not_corrupt_nil : ¬Corrupt [] := by
  intro corrupt
  obtain ⟨complete, -⟩ := corrupt .empty rfl
  exact absurd (complete uuidField (by decide)) (by decide)

theorem isRead_of_recordOfCells {reading : Reading}
    (reads : recordOfCells cells = .ok (some reading)) :
    ∃ fields, IsRead fields reading.record := by
  obtain ⟨fields, -, reads⟩ := exists_of_bind_eq_ok reads
  exact ⟨fields, isRead_of_toRecord reads⟩

end Cells

end BearerToken.Fields

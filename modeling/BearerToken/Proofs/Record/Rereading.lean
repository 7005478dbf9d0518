import Mathlib
import BearerToken.Proofs.Json.Forms
import BearerToken.Proofs.Record.Legible
import BearerToken.Proofs.Record.RoundTrip

/-!
# Records that are read and written again

Others write fields too, each in a form of its own, and a record that is read is written in the one
form that there is here. What is read from that is the same record, but for its state: one that
counts as nothing is kept as the empty object, and halves of a pair come back joined where they
stood side by side. Neither happens a second time. Where a record is laid over the fields that it
was read from, a field of the principal that it does not write has the say that it had.
-/

namespace BearerToken

namespace Json.Value

/-- A state that is kept as it is: it counts as nothing only if it is the empty object, and loses
nothing when it is written. -/
structure Settled (v : Value) : Prop where
  filled : v.isVoid = true → v = .emptyObject
  tidy : v.Tidy

end Json.Value

namespace Fields

open Json (Value)
open Json.Value (Rearranged)

section State

variable {v : Value} {p : Text → Prop}

theorem keptState_of_void (void : v.isVoid = true) : keptState v = .emptyObject := by
  rw [keptState, if_pos void]

theorem keptState_of_filled (filled : v.isVoid = true → v = .emptyObject) : keptState v = v := by
  cases void : v.isVoid with
  | true => rw [keptState_of_void void, filled void]
  | false =>
      rw [keptState, void]
      rfl

/-- What comes back is kept as it is from then on. -/
theorem settled_reread (v : Value) : (keptState v).reread.Settled where
  filled void := by
    rw [← keptState_reread]
    exact keptState_of_void void
  tidy := Json.Value.tidy_reread _

/-- A state of the forms of JSON comes back as it was just if it is kept as it is. -/
theorem rearranged_reread_iff (literal : v.Literal p) :
    Rearranged v (keptState v).reread ↔ v.Settled := by
  constructor
  · intro same
    refine ⟨fun void => ?_, same.tidy (Json.Value.tidy_reread _)⟩
    rw [keptState_of_void void] at same
    exact same.eq_emptyObject
  · intro settled
    have same := settled.tidy.rearranged
    rw [literal.spelled_eq] at same
    rwa [keptState_of_filled settled.filled, settled.tidy.reread_eq]

end State

section Read

variable [Limits] {fields : Fields} {cells : List (Cell × Cell)} {reading : Reading}

/-- The parts of a record that has been read. -/
theorem parts_of_toRecord (reads : toRecord fields = .ok (some reading)) :
    fields.filled? typeField = some reading.record.label ∧
      readState fields = .ok reading.record.state ∧
      readPrincipal fields = .ok (reading.record.principal, reading.unknownPrincipal) := by
  rw [toRecord] at reads
  split at reads
  · next label_filled _ _ =>
    obtain ⟨state, state_read, reads⟩ := exists_of_bind_eq_ok reads
    obtain ⟨_, _, reads⟩ := exists_of_bind_eq_ok reads
    obtain ⟨_, _, reads⟩ := exists_of_bind_eq_ok reads
    obtain ⟨_, _, reads⟩ := exists_of_bind_eq_ok reads
    obtain ⟨principal, principal_read, reads⟩ := exists_of_bind_eq_ok reads
    cases reads
    exact ⟨label_filled, state_read, principal_read⟩
  · cases reads

/-- A state that has been read is of the forms of JSON, and tidy if it was spelled in characters. -/
theorem forms_of_readState {v : Value} (reads : readState fields = .ok v) :
    v.Literal (fun _ => True) ∧
      ((∀ t, fields.filled? stateField = some t → t.IsPlain) → v.Tidy) := by
  rw [readState] at reads
  split at reads
  · cases reads
    exact ⟨.object List.nodup_nil (List.forall_mem_nil _) (List.forall_mem_nil _),
      fun _ => .object List.nodup_nil (List.forall_mem_nil _) (List.forall_mem_nil _)⟩
  · next text filled =>
    split at reads
    · next state read =>
      cases reads
      exact ⟨Json.literal_of_read read, fun plain => Json.tidy_of_read (plain text filled) read⟩
    · cases reads

/-- What becomes of a record that was read from cells when it is written and read again. It is
written, and comes back with nothing changed but its state. -/
structure Rereads (cells : List (Cell × Cell)) (r : Record) : Prop where
  persisted : persist r = .ok (ofRecord r)
  read : toRecord (ofRecord r) = .ok (some ⟨reread r, none⟩)
  handed : ∀ cells', Holds cells' (ofRecord r).entries →
    recordOfCells cells' = .ok (some ⟨reread r, none⟩)
  rest : { reread r with state := r.state } = r
  same : Rearranged r.state (reread r).state ↔ r.state.Settled
  void : r.state.isVoid = true → (reread r).state = .emptyObject
  settled : (reread r).state.Settled
  plain : (∀ fields t, ofCells cells = .ok fields → fields.filled? stateField = some t →
    ∃ s : String, t = s) → r.state.Tidy

theorem rereads_of_read (room : 0 < Limits.depth)
    (reads : recordOfCells cells = .ok (some reading)) : Rereads cells reading.record := by
  obtain ⟨fields, texts, reads⟩ := exists_of_bind_eq_ok reads
  have kept := (isRead_of_toRecord reads).isPersistable room
  obtain ⟨-, state, -⟩ := parts_of_toRecord reads
  obtain ⟨literal, tidy⟩ := forms_of_readState state
  refine ⟨persist_eq kept.writable, toRecord_ofRecord kept, ?_, rfl, rearranged_reread_iff literal,
    ?_, settled_reread _, ?_⟩
  · intro cells' holds
    rw [holds.recordOfCells_eq (nodup_ofRecord _)]
    exact toRecord_ofRecord kept
  · intro void
    rw [reread, keptState_of_void void]
    rfl
  · intro plain
    refine tidy fun t filled => ?_
    obtain ⟨s, rfl⟩ := plain fields t texts filled
    exact Text.isPlain_ofString s

end Read

theorem exists_of_any {p : Reading → Bool} {read : Except RecordError (Option Reading)}
    (holds : read.toOption.join.any p = true) :
    ∃ reading, read = .ok (some reading) ∧ p reading = true := by
  obtain _ | _ | reading := read
  · cases holds
  · cases holds
  · exact ⟨reading, rfl, holds⟩

/-- A state that counts as nothing, and two halves of a pair that are no escapes, are read from
their texts but do not come back. -/
theorem reread_unsettled :
    let cells (state : Text) : List (Cell × Cell) :=
      [(.text "uuid", .text (TokenId.generate 5 ⟨0, 0⟩).canonical), (.text "type", .text "L"),
        (.text "created", .text "5"), (.text "accessed", .text "5"), (.text "state", .text state)]
    let halves : Text := [.char '"', .surrogate 0x3d, .surrogate 0x600, .char '"']
    ∀ state ∈ ([Text.ofString "null", halves] : List Text), ∃ reading fields again,
      recordOfCells (cells state) = .ok (some reading) ∧ persist reading.record = .ok fields ∧
        toRecord fields = .ok (some again) ∧
        ¬Rearranged reading.record.state again.record.state := by
  intro cells halves state member
  have read : (recordOfCells (cells state)).toOption.join.any (fun reading =>
      match reading.record.state with
      | .null => true
      | .text t => t = [.surrogate 0x3d, .surrogate 0x600]
      | _ => false) = true := by
    revert state
    decide +kernel
  obtain ⟨reading, read, shown⟩ := exists_of_any read
  have rereads := rereads_of_read (by decide) read
  refine ⟨reading, _, _, read, rereads.persisted, rereads.read, ?_⟩
  intro same
  have settled := rereads.same.mp same
  split at shown
  · next null =>
    rw [null] at settled
    cases settled.filled rfl
  · next t text =>
    rw [text] at settled
    rw [decide_eq_true_eq] at shown
    cases settled.tidy with
    | text joined =>
      rw [shown] at joined
      exact absurd joined (by decide +kernel)
  · cases shown

section Overlay

variable {fields : Fields} {r : Record} {name t : Text}

theorem filled?_merge_of_some (held : (ofRecord r).get? name = some t) (nonempty : t ≠ []) :
    filled? (fields.merge (ofRecord r)) name = some t := by
  refine filled?_eq_some ?_ nonempty
  rw [Table.get?_merge (nodup_ofRecord r), held, Option.some_or]

theorem filled?_merge_of_none (absent : (ofRecord r).get? name = none) :
    filled? (fields.merge (ofRecord r)) name = fields.filled? name := by
  rw [filled?, Table.get?_merge (nodup_ofRecord r), absent, Option.none_or, filled?]

/-- A principal that is read has a scope if there is a field of one. -/
theorem scope_of_readPrincipal {p : Principal} {unknown : Option Text}
    (reads : readPrincipal fields = .ok (some p, unknown)) :
    unknown = none ∧ (p.scope = none → fields.filled? applicationField = none) := by
  rw [readPrincipal] at reads
  split at reads
  · cases reads
  · split at reads
    · cases reads
    · split at reads
      · cases reads
      · obtain ⟨id, _, reads⟩ := exists_of_bind_eq_ok reads
        cases owner : fields.filled? applicationField with
        | none =>
            rw [owner] at reads
            cases reads
            exact ⟨rfl, fun _ => rfl⟩
        | some application =>
            simp only [owner] at reads
            obtain ⟨scope, mapped, reads⟩ := exists_of_bind_eq_ok reads
            obtain ⟨u, _, rfl⟩ := exists_of_map_eq_ok mapped
            cases reads
            exact ⟨rfl, by simp⟩

/-- The principal of a record is the same in the fields that it was read from, with the record laid
over them. -/
theorem readPrincipal_merge {unknown : Option Text}
    (reads : readPrincipal fields = .ok (r.principal, unknown)) :
    readPrincipal (fields.merge (ofRecord r)) = .ok (r.principal, unknown) := by
  obtain ⟨id, label, created, accessed, principal, state⟩ := r
  obtain _ | ⟨kind, entity, scope⟩ := principal
  · have same (name) (absent : (ofRecord ⟨id, label, created, accessed, none, state⟩).get? name =
        none) : filled? (fields.merge (ofRecord _)) name = fields.filled? name :=
      filled?_merge_of_none absent
    rw [readPrincipal, same principalField rfl, same entityField rfl, same applicationField rfl]
    exact reads
  · obtain ⟨rfl, owner⟩ := scope_of_readPrincipal reads
    refine readPrincipal_of_filled (filled?_merge_of_some rfl (name_ne_nil kind))
      (filled?_merge_of_some rfl (canonical_ne_nil entity)) ?_
    cases scope with
    | none => rw [filled?_merge_of_none rfl, owner rfl, Option.map_none]
    | some scope => exact filled?_merge_of_some rfl (canonical_ne_nil scope)

/-- A record is read back from fields with which it agrees on the principal, when it is laid over
them. -/
theorem toRecord_merge [Limits] {unknown : Option Text} (kept : IsPersistable r)
    (reads : readPrincipal fields = .ok (r.principal, unknown)) :
    toRecord (fields.merge (ofRecord r)) = .ok (some ⟨reread r, unknown⟩) := by
  obtain ⟨created, accessed, -⟩ := fault?_eq_none_iff.mp kept.writable
  have state : readState (fields.merge (ofRecord r)) = .ok (keptState r.state).reread := by
    rw [← readState_ofRecord kept, readState, readState,
      filled?_merge_of_some (get?_state r) (stateText_ne_nil r.state),
      filled?_eq_some (get?_state r) (stateText_ne_nil r.state)]
  rw [toRecord, filled?_merge_of_some (get?_uuid r) (canonical_ne_nil r.id.uuid),
    filled?_merge_of_some (get?_type r) kept.labelled,
    filled?_merge_of_some (get?_created r) (write_ne_nil _),
    filled?_merge_of_some (get?_accessed r) (write_ne_nil _)]
  simp only [state, readId, TokenId.parse_canonical, readInt_write created,
    readInt_write accessed, readPrincipal_merge reads, bind, Except.bind]
  rfl

end Overlay

end Fields

end BearerToken

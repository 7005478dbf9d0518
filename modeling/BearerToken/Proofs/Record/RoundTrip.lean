import Mathlib
import BearerToken.Proofs.Bytes
import BearerToken.Proofs.Json.Meaning
import BearerToken.Proofs.Record.Fields

/-!
# The way of a record through its fields

A record with a label and an object as its state is persisted just if the limits leave room for its
integers and for the depth of its state. It comes back from its fields as it was, but for the leaves
of its state that JSON has no form for, which come back as their texts, and for a state that is not
tidy. It makes no difference whether the fields are handed back as texts or as bytes.
-/

namespace BearerToken

namespace Cell

variable {cell : Cell} {t : Text}

/-- The cell has this text, as it is or as its bytes. -/
def Holds (cell : Cell) (t : Text) : Prop :=
  cell = .text t ∨ ∃ s : String, t = s ∧ cell = .bytes (.ofString s)

theorem Holds.toText_eq (holds : cell.Holds t) : cell.toText = .ok t := by
  obtain rfl | ⟨s, rfl, rfl⟩ := holds
  · rfl
  · rw [toText, Bytes.toString?_ofString]

theorem Holds.key_eq (holds : cell.Holds t) : cell.key = cell := by
  obtain rfl | ⟨s, rfl, rfl⟩ := holds
  · rfl
  · rfl

end Cell

namespace Fields

open Json.Value (Rearranged)

theorem recordOfCells_of_ofCells [Limits] {cells : List (Cell × Cell)} {fields : Fields}
    (texts : ofCells cells = .ok fields) : recordOfCells cells = toRecord fields := by
  rw [recordOfCells, texts]
  rfl

/-- The cells have these keys and values, each as it is or as its bytes. -/
def Holds (cells : List (Cell × Cell)) (entries : List (Text × Text)) : Prop :=
  List.Forall₂ (fun cell entry => cell.1.Holds entry.1 ∧ cell.2.Holds entry.2) cells entries

namespace Holds

variable {cells : List (Cell × Cell)} {entries : List (Text × Text)}

theorem nodup (holds : Holds cells entries) (once : (entries.map Prod.fst).Nodup) :
    (cells.map Prod.fst).Nodup := by
  have texts : (cells.map Prod.fst).map Cell.toText = (entries.map Prod.fst).map Except.ok := by
    induction holds with
    | nil => rfl
    | cons here _ ih =>
        rw [List.map_cons, List.nodup_cons] at once
        simp only [List.map_cons, here.1.toText_eq, ih once.2]
  apply List.Nodup.of_map Cell.toText
  rw [texts]
  exact once.map fun _ _ => Except.ok.inj

theorem keys_eq (holds : Holds cells entries) : cells.map (fun e => (e.1.key, e.2)) = cells := by
  induction holds with
  | nil => rfl
  | cons here _ ih => rw [List.map_cons, ih, here.1.key_eq]

theorem mapM_toText (holds : Holds cells entries) :
    cells.mapM (fun e => do
      let key ← e.1.toText
      let value ← e.2.toText
      pure (key, value)) = (.ok entries : Except RecordError (List (Text × Text))) := by
  induction holds with
  | nil => rfl
  | cons here _ ih =>
      rw [List.mapM_cons, ih, here.1.toText_eq, here.2.toText_eq]
      rfl

/-- Fields are read from cells that hold them. -/
theorem ofCells_eq (holds : Holds cells entries) (once : (entries.map Prod.fst).Nodup) :
    ofCells cells = .ok ⟨entries⟩ := by
  rw [ofCells, holds.keys_eq, Table.ofList_entries (holds.nodup once), holds.mapM_toText]
  exact congrArg Except.ok (congrArg Table.mk (Table.ofList_entries once))

theorem recordOfCells_eq [Limits] (holds : Holds cells entries)
    (once : (entries.map Prod.fst).Nodup) : recordOfCells cells = toRecord ⟨entries⟩ :=
  recordOfCells_of_ofCells (holds.ofCells_eq once)

end Holds

theorem nodup_ofRecord (r : Record) : (ofRecord r).Nodup := by
  obtain ⟨id, label, created, accessed, principal, state⟩ := r
  obtain _ | ⟨kind, entity, _ | scope⟩ := principal
  · exact (by decide : [uuidField, typeField, createdField, accessedField, stateField].Nodup)
  · exact (by decide : [uuidField, typeField, createdField, accessedField, stateField,
      principalField, entityField].Nodup)
  · exact (by decide : [uuidField, typeField, createdField, accessedField, stateField,
      principalField, entityField, applicationField].Nodup)

/-- The limits leave room for a record: no integer in it has too many digits, and its state is not
too deep. -/
structure Fits [Limits] (r : Record) : Prop where
  created : Numeral.isWritable r.created
  accessed : Numeral.isWritable r.accessed
  integers : ∀ n ∈ r.state.integers, Numeral.isWritable n
  depth : r.state.nesting ≤ Limits.depth

end Fields

end BearerToken

import Mathlib
import BearerToken.Proofs.Json.Reading
import BearerToken.Proofs.Json.Reread
import BearerToken.Proofs.Numeral.Bounds
import BearerToken.Proofs.Table

/-!
# What is read can be written

Reading and writing are under the same limits. So no integer is read that has more digits than are
written, and no value with more containers inside each other.
-/

namespace BearerToken

namespace Json

theorem isDigit_of_mem_digitRun {t ds rest : Text} (run : Numeral.digitRun t = (ds, rest)) :
    ∀ c ∈ ds, '0'.toNat ≤ c.toNat ∧ c.toNat ≤ '9'.toNat := by
  cases run
  intro c member
  simpa using List.mem_takeWhile_imp member

/-- The whole part of a number has a digit, and no code point that is none. -/
theorem digits_of_wholePart {left : Nat} {t whole rest : Text}
    (reads : wholePart left t = .ok (whole, rest)) :
    whole ≠ [] ∧ ∀ c ∈ whole, '0'.toNat ≤ c.toNat ∧ c.toNat ≤ '9'.toNat := by
  rw [wholePart.eq_def] at reads
  split at reads
  · cases reads
    exact ⟨by decide, by decide⟩
  · split at reads
    · cases reads
    · next filled =>
      have run := Except.ok.inj reads
      refine ⟨?_, isDigit_of_mem_digitRun run⟩
      rintro rfl
      exact filled rest run

theorem fault_text [Limits] (room : Nat) (t : Text) : fault? room (.text t) = none := by
  cases room <;> rfl

theorem fault_of_readMagnitude [Limits] {negative : Bool} {t rest : Text} {v : Value}
    (reads : readMagnitude negative t = .ok (v, rest)) (room : Nat) : fault? room v = none := by
  rw [readMagnitude] at reads
  obtain ⟨⟨whole, behind⟩, part, reads⟩ := exists_of_bind_eq_ok reads
  obtain ⟨nonempty, digits⟩ := digits_of_wholePart part
  dsimp only at reads
  split at reads
  · cases reads
    cases room <;> rfl
  · split at reads
    · cases reads
    · next short =>
      cases reads
      have below : ∀ d ∈ whole.map fun c => c.toNat - '0'.toNat, d < 10 := by
        intro d member
        obtain ⟨c, inside, rfl⟩ := List.mem_map.mp member
        have nine : '9'.toNat = '0'.toNat + 9 := rfl
        have bounds := digits c inside
        omega
      have writable : Numeral.isWritable
          (if negative then -(Numeral.ofDigits whole : Int) else Numeral.ofDigits whole) := by
        refine Numeral.isWritable_of_digits (by simpa using nonempty) below
          (by simpa using short) ?_
        split <;> simp [Numeral.ofDigits]
      rw [fault?, if_pos writable]

theorem fault_of_readPlain [Limits] {t rest : Text} {v : Value}
    (reads : readPlain t = .ok (v, rest)) (room : Nat) : fault? room v = none := by
  rw [readPlain.eq_def] at reads
  split at reads
  · next r word =>
    cases reads
    obtain ⟨w, listed, found⟩ := List.exists_of_findSome?_eq_some word
    obtain ⟨behind, -, same⟩ := Option.map_eq_some_iff.mp found
    cases same
    have plain : ∀ w ∈ words, fault? room w.2 = none := by
      cases room <;> simp [words, fault?]
    exact plain w listed
  · exact fault_of_readMagnitude reads room
  · exact fault_of_readMagnitude reads room

/-- What is read with so much fuel can be written where there is as much room. -/
structure Bounded [Limits] (fuel : Nat) : Prop where
  value : ∀ {room : Nat} {t rest : Text} {v : Value},
    readValue fuel room t = .ok (v, rest) → fault? room v = none
  items : ∀ {room : Nat} {t rest : Text} {vs : List Value},
    readItems fuel room t = .ok (vs, rest) → ∀ v ∈ vs, fault? room v = none
  members : ∀ {room : Nat} {t rest : Text} {ms : List (Text × Value)},
    readMembers fuel room t = .ok (ms, rest) → ∀ m ∈ ms, fault? room m.2 = none

/-- Every form passes it on that a value can be written in the room that it was read in. -/
theorem readRule_fault [Limits] :
    ReadRule (fun _ => True) (fun _ => True) fun room v => fault? room v = none where
  behind _ _ := trivial
  string _ _ := trivial
  text _ := fault_text _ _
  plain reads := fault_of_readPlain reads _
  list each := fault_list.mpr each
  object each := fault_object.mpr fun m member =>
    (each m (Table.mem_of_mem_ofList (mem_of_mem_ordered member))).2

theorem bounded [Limits] (fuel : Nat) : Bounded fuel where
  value reads := ((readRule_fault.sound fuel).value trivial reads).1
  items reads := ((readRule_fault.sound fuel).items trivial reads).1
  members reads := fun m inside =>
    (((readRule_fault.sound fuel).members trivial reads).1 m inside).2

/-- What is read can be written. -/
theorem fault_of_read [Limits] {t : Text} {v : Value} (reads : read t = .ok v) :
    fault? Limits.depth v = none := by
  obtain ⟨⟨v', rest⟩, value, reads⟩ := exists_of_bind_eq_ok reads
  dsimp only at reads
  split at reads
  · cases reads
    exact (bounded _).value value
  · cases reads

end Json

end BearerToken

import Mathlib
import BearerToken.Proofs.Json.Reading

/-!
# Where a text stops being JSON

A string is told what is wrong with it exactly where it has no closing quote of its own, and the
place that is told of any text lies within it. A place counts what is left of the text, so the one
thing to know of a reader is that it passes over no more than it was given, which is a rule for what
is read.
-/

namespace BearerToken.Json

/-- Whether a string is closed does not hang on how its escapes pair up. -/
theorem isSome_readText_unit (a b c d : CodePoint) (t : Text) :
    (readText (.char '\\' :: .char 'u' :: a :: b :: c :: d :: t)).isSome =
      ((hexUnit? a b c d).isSome && (readText t).isSome) := by
  rw [readText]
  cases hexUnit? a b c d with
  | none => rfl
  | some u =>
      rw [Option.isSome_some, Bool.true_and]
      simp only [bind, Option.bind_some]
      split
      · next a' b' c' d' behind =>
        split
        · next joined same =>
          obtain ⟨v, low, -⟩ := Option.bind_eq_some_iff.mp same
          rw [isSome_readText_unit a' b' c' d' behind, low, Option.isSome_map]
          rfl
        · exact Option.isSome_map ..
      · exact Option.isSome_map ..
  termination_by t.length

/-- A backslash is taken with what follows it. -/
theorem ne_backslash {c : CodePoint} {t : Text}
    (more : ∀ letter rest, c = .char '\\' → t = letter :: rest → False)
    (last : c = .char '\\' → t = [] → False) : c ≠ .char '\\' := by
  intro same
  cases t with
  | nil => exact last same rfl
  | cons letter rest => exact more letter rest same rfl

/-- A string has a fault exactly where it cannot be read. -/
theorem isNone_stringFault? (size : Nat) (t : Text) :
    (stringFault? size t).isNone = (readText t).isSome := by
  fun_induction stringFault? size t with
  | case1 => rfl
  | case2 => rfl
  | case3 a b c d e behind unit ih => rw [isSome_readText_unit, unit, ih, Bool.true_and]
  | case4 a b c d e behind unit =>
      rw [isSome_readText_unit, Bool.eq_false_iff.mpr unit]
      rfl
  | case5 rest short =>
      rcases rest with _ | ⟨a, _ | ⟨b, _ | ⟨c, _ | ⟨d, _ | ⟨e, behind⟩⟩⟩⟩⟩
      · rfl
      · rfl
      · rfl
      · rfl
      · rw [isSome_readText_unit]
        exact (Bool.and_false _).symm
      · exact (short a b c d e behind rfl).elim
  | case6 letter rest other known ih =>
      obtain ⟨c, stands⟩ := Option.isSome_iff_exists.mp known
      rw [readText, stands, ih]
      · exact (Option.isSome_map ..).symm
      · rintro _ _ _ _ _ rfl
        exact (other rfl).elim
  | case7 letter rest other unknown =>
      rw [readText, Option.not_isSome_iff_eq_none.mp unknown]
      · rfl
      · rintro _ _ _ _ _ rfl
        exact (other rfl).elim
  | case8 => rfl
  | case9 c rest quote unit more last low =>
      rw [readText, if_pos (by simpa using .inl low)]
      · rfl
      · exact quote
      · rintro a b c d behind same rfl
        exact unit _ same rfl
      · exact more
  | case10 c rest quote unit more last high ih =>
      have other := ne_backslash more last
      rw [readText, if_neg (by simp [high, other]), ih]
      · exact (Option.isSome_map ..).symm
      · exact quote
      · rintro a b c d behind same rfl
        exact unit _ same rfl
      · exact more

theorem left_le_of_stringFault? {size left : Nat} {t : Text} {complaint : Complaint}
    (inside : t.length < size) (fault : stringFault? size t = some (complaint, left)) :
    left ≤ size := by
  fun_induction stringFault? size t with
  | case1 | case8 =>
      cases fault
      exact Nat.le_refl _
  | case2 => cases fault
  | case3 a b c d e behind unit ih =>
      simp only [List.length_cons] at inside ih
      exact ih (by omega) fault
  | case4 | case5 | case7 | case9 =>
      cases fault
      simp only [List.length_cons] at inside ⊢
      omega
  | case6 letter rest other known ih =>
      simp only [List.length_cons] at inside
      exact ih (by omega) fault
  | case10 c rest quote unit more last high ih =>
      simp only [List.length_cons] at inside
      exact ih (by omega) fault

/-- What is complained of, if anything, leaves no more than so much of the text. -/
def Placed (n : Nat) {α : Type} : Parsed α → Prop
  | .error (.notJson _ left) => left ≤ n
  | _ => True

section Placed

variable {n : Nat} {α β : Type} {x : Parsed α} {t : Text}

theorem Placed.bind {f : α → Parsed β} (first : Placed n x)
    (next : ∀ a, x = .ok a → Placed n (f a)) : Placed n (x >>= f) := by
  cases x with
  | error cause => cases cause <;> exact first
  | ok a => exact next a rfl

theorem Placed.map (first : Placed n x) (f : α → β) : Placed n (x.map f) := by
  cases x with
  | error cause => cases cause <;> exact first
  | ok a => trivial

theorem placed_readString (inside : t.length < n) : Placed n (readString t) := by
  rw [readString]
  split
  · trivial
  · next fault => exact (left_le_of_stringFault? (Nat.lt_succ_self _) fault).trans inside
  · exact inside

theorem placed_wholePart {left : Nat} (inside : left ≤ n) : Placed n (wholePart left t) := by
  rw [wholePart.eq_def]
  split
  · trivial
  · split
    · exact inside
    · trivial

theorem placed_readMagnitude [Limits] {negative : Bool}
    (inside : (if negative then t.length + 1 else t.length) ≤ n) :
    Placed n (readMagnitude negative t) := by
  rw [readMagnitude]
  refine (placed_wholePart inside).bind fun parts _ => ?_
  dsimp only
  split
  · trivial
  · split
    · trivial
    · trivial

theorem placed_readPlain [Limits] (inside : t.length ≤ n) : Placed n (readPlain t) := by
  rw [readPlain.eq_def]
  split
  · trivial
  · exact placed_readMagnitude inside
  · exact placed_readMagnitude inside

theorem length_skipSpace_le (inside : t.length ≤ n) : (skipSpace t).length ≤ n :=
  (suffix_skipSpace t).length_le.trans inside

end Placed

/-- What is left of a text is no more than the text. -/
theorem lengthRule [Limits] (n : Nat) :
    ReadRule (fun t => t.length ≤ n) (fun _ => True) (fun _ _ => True) where
  behind suffix inside := suffix.length_le.trans inside
  string _ _ := trivial
  text _ := trivial
  plain _ := trivial
  list _ := trivial
  object _ := trivial

/-- With so much fuel, what is complained of is in the text. -/
structure ReadPlaced [Limits] (n fuel : Nat) : Prop where
  value : ∀ {room : Nat} {t : Text}, t.length ≤ n → Placed n (readValue fuel room t)
  items : ∀ {room : Nat} {t : Text}, t.length ≤ n → Placed n (readItems fuel room t)
  members : ∀ {room : Nat} {t : Text}, t.length ≤ n → Placed n (readMembers fuel room t)

section Steps

variable [Limits] {n fuel room : Nat} {t : Text}

theorem readPlaced_zero : ReadPlaced n 0 where
  value inside := by
    rw [readValue.eq_def]
    split
    · exact (placed_readString inside).map _
    · trivial
    · trivial
    · next none => cases none
    · next none => cases none
    · exact placed_readPlain inside
  items inside := by
    rw [readItems]
    exact inside
  members inside := by
    rw [readMembers.eq_def]
    exact inside

theorem ReadPlaced.succ_items (placed : ReadPlaced n fuel) (inside : t.length ≤ n) :
    Placed n (readItems (fuel + 1) room t) := by
  rw [readItems]
  refine (placed.value inside).bind ?_
  rintro ⟨v, rest⟩ read
  have left := length_skipSpace_le (((lengthRule n).sound fuel).value inside read).2
  dsimp only
  split
  · trivial
  · next comma =>
    rw [comma] at left
    exact (placed.items (length_skipSpace_le (Nat.le_of_succ_le left))).bind fun _ _ => trivial
  · exact left

theorem ReadPlaced.succ_members (placed : ReadPlaced n fuel) (inside : t.length ≤ n) :
    Placed n (readMembers (fuel + 1) room t) := by
  rw [readMembers.eq_def]
  split
  · next same =>
    cases same
    refine (placed_readString inside).bind ?_
    rintro ⟨key, rest⟩ read
    have left := length_skipSpace_le
      ((lengthRule n).of_readString (Nat.le_of_succ_le inside) read).2
    dsimp only
    split
    · next colon =>
      rw [colon] at left
      have inner := length_skipSpace_le (Nat.le_of_succ_le left)
      refine (placed.value inner).bind ?_
      rintro ⟨v, rest⟩ read
      have left := length_skipSpace_le (((lengthRule n).sound fuel).value inner read).2
      dsimp only
      split
      · trivial
      · next comma =>
        rw [comma] at left
        exact (placed.members (length_skipSpace_le (Nat.le_of_succ_le left))).bind
          fun _ _ => trivial
      · exact left
    · exact left
  · exact inside

theorem ReadPlaced.succ_value (placed : ReadPlaced n fuel) (inside : t.length ≤ n) :
    Placed n (readValue (fuel + 1) room t) := by
  rw [readValue.eq_def]
  split
  · exact (placed_readString inside).map _
  · trivial
  · trivial
  · next same =>
    cases same
    have inner := length_skipSpace_le (Nat.le_of_succ_le inside)
    split
    · trivial
    · exact (placed.items inner).map _
  · next same =>
    cases same
    have inner := length_skipSpace_le (Nat.le_of_succ_le inside)
    split
    · trivial
    · exact (placed.members inner).map _
  · exact placed_readPlain inside

theorem readPlaced (n fuel : Nat) : ReadPlaced n fuel := by
  induction fuel with
  | zero => exact readPlaced_zero
  | succ fuel ih => exact ⟨ih.succ_value, ih.succ_items, ih.succ_members⟩

/-- A text that is no JSON stops being it at a place in the text, or at its end. -/
theorem left_le_of_read {complaint : Complaint} {left : Nat}
    (stops : read t = .error (.notJson complaint left)) : left ≤ t.length := by
  have inside := length_skipSpace_le (Nat.le_refl t.length)
  have placed : Placed t.length (read t) := by
    rw [read]
    refine ((readPlaced t.length _).value inside).bind ?_
    rintro ⟨v, rest⟩ read
    have left := length_skipSpace_le (((lengthRule t.length).sound _).value inside read).2
    dsimp only
    split
    · trivial
    · exact left
  rwa [stops] at placed

end Steps

end BearerToken.Json

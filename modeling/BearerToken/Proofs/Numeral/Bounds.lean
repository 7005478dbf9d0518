import Mathlib
import BearerToken.Proofs.Json.Reading
import BearerToken.Proofs.Numeral

/-!
# How large a number a numeral denotes

What is read without a sign is the number that a run of digits denotes: no more digits than the text
has code points, and no more than the limit says. So a numeral of a given width denotes a number of
that width, whichever marks and underscores stand in it, and only a minus sign makes it negative.
-/

namespace BearerToken.Numeral

theorem lt_of_digit? {base d : Nat} {c : CodePoint} (digit : Text.digit? base c = some d) :
    d < base := by
  rw [Text.digit?, Option.filter_eq_some_iff] at digit
  simpa using digit.2

/-- A spaced run starts with a digit. -/
theorem digits_ne_nil_of_isSpaced {base : Nat} {t : Text}
    (spaced : isSpaced (t.takeWhile (inRun base)) = true) :
    (t.takeWhile (inRun base)).filterMap (Text.digit? base) ≠ [] := by
  cases t with
  | nil => cases spaced
  | cons c rest =>
      cases digit : Text.digit? base c with
      | some d => simp [inRun, digit]
      | none => simp [isSpaced, inRun, digit, List.takeWhile_cons, apply_ite] at spaced

/-- A number that is read off digits has no more digits than these. -/
theorem isWritable_of_digits [Limits] {ds : List Nat} {n : Int} (nonempty : ds ≠ [])
    (below : ∀ d ∈ ds, d < 10) (short : Limits.digits.any (· < ds.length) = false)
    (denotes : n.natAbs = value 10 ds) : isWritable n := by
  have length : (digits n.natAbs).length ≤ ds.length :=
    length_digits_le (List.length_pos_iff.mpr nonempty) (denotes ▸ value_lt below)
  rw [isWritable]
  cases limit : Limits.digits with
  | none => rfl
  | some most =>
      rw [limit, Option.any_some, decide_eq_false_iff_not] at short
      rw [Option.all_some, decide_eq_true_eq]
      omega

section Magnitudes

variable [Limits] {base m : Nat} {t : Text}

/-- The digits that a numeral without a sign is read off. -/
theorem exists_digits_of_readMagnitude (reads : readMagnitude base t = .ok m) :
    ∃ ds : List Nat, ds ≠ [] ∧ ds.length ≤ t.length ∧ (∀ d ∈ ds, d < base) ∧
      (limit? base).any (· < ds.length) = false ∧ value base ds = m := by
  rw [readMagnitude] at reads
  split at reads
  · cases reads
  · next spaced =>
    split at reads
    · cases reads
    · next short =>
      split at reads
      · cases reads
      · cases reads
        refine ⟨_, digits_ne_nil_of_isSpaced (by simpa using spaced), ?_, ?_,
          Bool.eq_false_iff.mpr short, rfl⟩
        · exact (List.length_filterMap_le ..).trans (List.takeWhile_sublist _).length_le
        · intro d member
          obtain ⟨c, -, digit⟩ := List.mem_filterMap.mp member
          exact lt_of_digit? digit

theorem isWritable_of_readMagnitude {n : Int} (reads : readMagnitude 10 t = .ok m)
    (same : n.natAbs = m) : isWritable n := by
  obtain ⟨ds, nonempty, -, below, short, denotes⟩ := exists_digits_of_readMagnitude reads
  exact isWritable_of_digits nonempty below short (same.trans denotes.symm)

theorem lt_of_readMagnitude (positive : 0 < base) (reads : readMagnitude base t = .ok m) :
    m < base ^ t.length := by
  obtain ⟨ds, -, few, below, -, denotes⟩ := exists_digits_of_readMagnitude reads
  calc m = value base ds := denotes.symm
    _ < base ^ ds.length := value_lt below
    _ ≤ base ^ t.length := Nat.pow_le_pow_right positive few

/-- The digits stand at the end, behind a base mark if there is one. -/
theorem exists_readMarked_eq (base : Nat) (t : Text) :
    ∃ u, u <:+ t ∧ readMarked base t = readMagnitude base u := by
  unfold readMarked
  split
  · next z x rest =>
    have behind : rest <:+ z :: x :: rest := ⟨[z, x], rfl⟩
    split
    · split
      · next rest => exact ⟨rest, (List.suffix_cons _ rest).trans behind, rfl⟩
      · exact ⟨rest, behind, rfl⟩
    · exact ⟨_, List.suffix_rfl, rfl⟩
  · exact ⟨t, List.suffix_rfl, rfl⟩

theorem lt_of_readMarked (positive : 0 < base) (reads : readMarked base t = .ok m) :
    m < base ^ t.length := by
  obtain ⟨u, behind, same⟩ := exists_readMarked_eq base t
  calc m < base ^ u.length := lt_of_readMagnitude positive (same ▸ reads)
    _ ≤ base ^ t.length := Nat.pow_le_pow_right positive behind.length_le

end Magnitudes

theorem readMarked_ten [Limits] (t : Text) : readMarked 10 t = readMagnitude 10 t := by
  obtain _ | ⟨z, _ | ⟨x, rest⟩⟩ := t
  · rfl
  · rfl
  · rfl

/-- An integer that is read from decimal digits can be written. -/
theorem isWritable_of_read [Limits] {t : Text} {n : Int} (reads : read 10 t = .ok n) :
    isWritable n := by
  rw [read, readSigned.eq_def] at reads
  simp only [readMarked_ten] at reads
  split at reads
  · obtain ⟨_, negated, rfl⟩ := exists_of_map_eq_ok reads
    obtain ⟨m, magnitude, same⟩ := exists_of_bind_eq_ok negated
    cases same
    exact isWritable_of_readMagnitude magnitude (by simp)
  · obtain ⟨m, magnitude, rfl⟩ := exists_of_map_eq_ok reads
    exact isWritable_of_readMagnitude magnitude rfl
  · obtain ⟨m, magnitude, rfl⟩ := exists_of_map_eq_ok reads
    exact isWritable_of_readMagnitude magnitude rfl

/-- Without a minus sign in it, a numeral denotes a number with no more digits than the numeral has
code points. -/
theorem exists_lt_of_read [Limits] {base : Nat} {t : Text} {n : Int} (positive : 0 < base)
    (unsigned : .char '-' ∉ t) (reads : read base t = .ok n) :
    ∃ m : Nat, m < base ^ t.length ∧ n = m := by
  have inside : Text.trim isPadding t <:+: t := trim_infix isPadding t
  rw [read, readSigned.eq_def] at reads
  split at reads
  · next rest trimmed =>
    exact absurd (inside.subset (trimmed ▸ List.mem_cons_self)) unsigned
  · next rest trimmed =>
    obtain ⟨m, marked, rfl⟩ := exists_of_map_eq_ok reads
    have shorter : rest.length ≤ t.length :=
      (List.suffix_cons _ rest).length_le.trans (trimmed ▸ inside.length_le)
    exact ⟨m, (lt_of_readMarked positive marked).trans_le
      (Nat.pow_le_pow_right positive shorter), rfl⟩
  · obtain ⟨m, marked, rfl⟩ := exists_of_map_eq_ok reads
    exact ⟨m, (lt_of_readMarked positive marked).trans_le
      (Nat.pow_le_pow_right positive inside.length_le), rfl⟩

end BearerToken.Numeral

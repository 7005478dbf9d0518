import Mathlib
import BearerToken.Json.Reader
import BearerToken.Json.Writer
import BearerToken.Proofs.Numeral

/-!
# Numbers in JSON

How a numeral at the front of a text is taken apart: its whole part, the digits behind a point, and
an exponent. An integer that is written is read as that integer, whatever other value or mark
follows it.
-/

namespace BearerToken.Numeral

open Text (hexDigit)

theorem head_digits {n : Nat} (positive : n ≠ 0) : (digits n).head? ≠ some '0' := by
  induction n using digits.induct with
  | case1 n small =>
      have symbol : ∀ d < 10, d ≠ 0 → Char.ofNat ('0'.toNat + d) ≠ '0' := by decide
      rw [digits, if_pos small]
      simpa using symbol n small positive
  | case2 n large ih =>
      have front : n / 10 ≠ 0 := by omega
      rw [digits, if_neg large, List.head?_append_of_ne_nil _ (digits_ne_nil _)]
      exact ih front

end BearerToken.Numeral

namespace BearerToken.Json

open Numeral (symbols IsPast digitRun_symbols ofDigits_symbols)

/-- Nothing that could belong to a number stands in front: what follows a value is a comma, a closing
bracket or brace, the end of the line, or nothing. -/
def Ends (rest : Text) : Prop :=
  ∀ c ∈ rest.head?, c ∈ ([',', ']', '\x7d', '\n'].map CodePoint.char)

theorem ends_nil : Ends [] := nofun

theorem Ends.isPast {rest : Text} (ends : Ends rest) : IsPast rest := by
  intro c head
  have listed := ends c head
  simp only [List.map_cons, List.map_nil, List.mem_cons, List.not_mem_nil, or_false] at listed
  obtain rfl | rfl | rfl | rfl := listed <;> decide

theorem Ends.fractionPart {rest : Text} (ends : Ends rest) : fractionPart rest = none := by
  unfold Json.fractionPart
  split
  · exact absurd (ends _ rfl) (by decide)
  · rfl

theorem Ends.exponentPart {rest : Text} (ends : Ends rest) : exponentPart rest = none := by
  cases rest with
  | nil => rfl
  | cons c rest =>
      have other : ¬(c = .char 'e' ∨ c = .char 'E') := by
        have listed := ends c rfl
        simp only [List.map_cons, List.map_nil, List.mem_cons, List.not_mem_nil, or_false] at listed
        obtain rfl | rfl | rfl | rfl := listed <;> decide
      simp only [Json.exponentPart, Bool.or_eq_true, decide_eq_true_eq]
      rw [if_neg other]

/-- Digits that can stand before the point: a zero alone, or no zero in front. -/
structure IsWhole (ws : List Nat) : Prop where
  nonempty : ws ≠ []
  below : ∀ d ∈ ws, d < 10
  leads : ws = [0] ∨ ws.head? ≠ some 0

theorem isWhole_digits (n : Nat) :
    ∃ ws, Numeral.digits n = ws.map Text.hexDigit ∧ IsWhole ws ∧ Numeral.value 10 ws = n := by
  obtain ⟨ws, written, nonempty, below, denotes⟩ := Numeral.exists_digits n
  refine ⟨ws, written, ⟨nonempty, below, ?_⟩, denotes⟩
  by_cases zero : n = 0
  · subst zero
    have one : ws.length = 1 := by
      have length := congrArg List.length written
      rw [Numeral.digits, if_pos (by decide)] at length
      simpa using length.symm
    obtain ⟨d, rfl⟩ := List.length_eq_one_iff.mp one
    refine .inl ?_
    simpa [Numeral.value] using denotes
  · refine .inr ?_
    intro leads
    apply Numeral.head_digits zero
    rw [written, List.head?_map, leads]
    rfl

theorem wholePart_symbols {ws : List Nat} (whole : IsWhole ws) {rest : Text} (past : IsPast rest)
    (left : Nat) : wholePart left (symbols ws ++ rest) = .ok (symbols ws, rest) := by
  obtain rfl | leads := whole.leads
  · rfl
  · have run := digitRun_symbols whole.below past
    obtain ⟨d, ds, rfl⟩ := List.exists_cons_of_ne_nil whole.nonempty
    have first : Text.hexDigit d ≠ '0' := by
      have symbol : ∀ d < 10, d ≠ 0 → Text.hexDigit d ≠ '0' := by decide
      exact symbol d (whole.below d List.mem_cons_self) (by simpa using leads)
    have spelled : symbols (d :: ds) ++ rest = .char (Text.hexDigit d) :: (symbols ds ++ rest) := rfl
    rw [spelled] at run ⊢
    rw [wholePart, run]
    · rfl
    · rintro t heads
      exact first (CodePoint.char.inj (List.cons.inj heads).1)

/-- Digits with neither a point nor an exponent behind them are an integer. -/
theorem readMagnitude_int [Limits] (negative : Bool) {ws : List Nat} (whole : IsWhole ws)
    (short : Limits.digits.all (ws.length ≤ ·)) {rest : Text} (ends : Ends rest) :
    readMagnitude negative (symbols ws ++ rest) =
      .ok (.int (if negative then -(Numeral.value 10 ws : Int) else Numeral.value 10 ws), rest) := by
  have length : (symbols ws).length = ws.length := by simp [symbols, Text.ofChars]
  rw [readMagnitude, wholePart_symbols whole ends.isPast]
  simp only [Except.bind, bind, ends.fractionPart, Option.getD_none, ends.exponentPart, length,
    ofDigits_symbols whole.below, Numeral.any_lt_eq_false short]
  simp

/-- No word starts with a digit, with or without a sign. -/
theorem readWord_eq_none {d : Nat} (below : d < 10) (t : Text) :
    readWord? (.char (Text.hexDigit d) :: t) = none ∧
      readWord? (.char '-' :: .char (Text.hexDigit d) :: t) = none := by
  have other : ∀ d < 10, 'n' ≠ Text.hexDigit d ∧ 't' ≠ Text.hexDigit d ∧ 'f' ≠ Text.hexDigit d ∧
      'N' ≠ Text.hexDigit d ∧ 'I' ≠ Text.hexDigit d ∧ '-' ≠ Text.hexDigit d := by decide
  obtain ⟨n, t', f, bigN, bigI, sign⟩ := other d below
  constructor <;>
    simp [readWord?, words, behind?, Text.ofString, Text.ofChars, n, t', f, bigN, bigI, sign]

/-- What starts with a digit is read as a magnitude, with or without a sign. -/
theorem readPlain_digit [Limits] {d : Nat} (below : d < 10) (t : Text) :
    readPlain (.char (Text.hexDigit d) :: t) = readMagnitude false (.char (Text.hexDigit d) :: t) ∧
      readPlain (.char '-' :: .char (Text.hexDigit d) :: t) =
        readMagnitude true (.char (Text.hexDigit d) :: t) := by
  have sign : Text.hexDigit d ≠ '-' := by
    have symbol : ∀ d < 10, Text.hexDigit d ≠ '-' := by decide
    exact symbol d below
  obtain ⟨plain, negative⟩ := readWord_eq_none below t
  constructor
  · simp only [readPlain, plain]
    split
    · next heads => simp at heads
    · next heads =>
      simp only [List.cons.injEq] at heads
      exact absurd (CodePoint.char.inj heads.1) sign
    · rfl
  · simp only [readPlain, negative]

theorem readPlain_symbols [Limits] {ws : List Nat} (whole : IsWhole ws) (rest : Text) :
    readPlain (symbols ws ++ rest) = readMagnitude false (symbols ws ++ rest) ∧
      readPlain (.char '-' :: (symbols ws ++ rest)) = readMagnitude true (symbols ws ++ rest) := by
  obtain ⟨d, ds, rfl⟩ := List.exists_cons_of_ne_nil whole.nonempty
  exact readPlain_digit (whole.below d List.mem_cons_self) (symbols ds ++ rest)

/-- A written integer is read as that integer. -/
theorem readPlain_chars [Limits] {n : Int} (writable : Numeral.isWritable n) {rest : Text}
    (ends : Ends rest) :
    readPlain (Text.ofChars (Numeral.chars n) ++ rest) = .ok (.int n, rest) := by
  obtain ⟨ws, written, whole, denotes⟩ := isWhole_digits n.natAbs
  have short : Limits.digits.all (ws.length ≤ ·) := by
    rwa [Numeral.isWritable, written, List.length_map] at writable
  cases n with
  | ofNat n =>
      have spelled : Text.ofChars (Numeral.chars (.ofNat n)) = symbols ws :=
        congrArg Text.ofChars written
      rw [spelled, (readPlain_symbols whole rest).1, readMagnitude_int false whole short ends,
        denotes]
      rfl
  | negSucc n =>
      have spelled : Text.ofChars (Numeral.chars (.negSucc n)) = .char '-' :: symbols ws :=
        congrArg (fun cs => Text.ofChars ('-' :: cs)) written
      rw [spelled, List.cons_append, (readPlain_symbols whole rest).2,
        readMagnitude_int true whole short ends, denotes]
      rfl

end BearerToken.Json

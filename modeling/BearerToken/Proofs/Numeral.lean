import Mathlib
import BearerToken.Numeral
import BearerToken.Text.Hex

/-!
# Numbers and their digits

What is written in digits is read back: as a numeral, if there are not too many digits, and as a run
of digits at the front of a longer text. What is written is described as symbols of digits below the
base, the first one first. A numeral may be written with other symbols, of any script and in either
case: what counts is which digit each of them stands for.
-/

namespace BearerToken.Numeral

open Text (hexDigit)

@[simp] theorem value_concat (base : Nat) (ds : List Nat) (d : Nat) :
    value base (ds ++ [d]) = value base ds * base + d := by
  simp [value]

theorem value_append (base : Nat) (ds es : List Nat) :
    value base (ds ++ es) = value base ds * base ^ es.length + value base es := by
  induction es using List.reverseRecOn with
  | nil => simp [value]
  | append_singleton es e ih =>
      rw [← List.append_assoc, value_concat, value_concat, ih, List.length_append,
        List.length_singleton, Nat.pow_succ, Nat.add_mul, Nat.mul_assoc, Nat.add_assoc]

theorem value_lt {base : Nat} {ds : List Nat} (below : ∀ d ∈ ds, d < base) :
    value base ds < base ^ ds.length := by
  induction ds using List.reverseRecOn with
  | nil => simp [value]
  | append_singleton ds d ih =>
      have front : value base ds < base ^ ds.length := by
        apply ih
        intro e member
        exact below e (by simp [member])
      have last : d < base := below d (by simp)
      have room := Nat.mul_le_mul_right base (Nat.succ_le_of_lt front)
      rw [Nat.succ_mul] at room
      rw [value_concat, List.length_append, List.length_singleton, Nat.pow_succ]
      omega

/-- The digits that a number is written with. -/
theorem exists_digits (n : Nat) :
    ∃ ds, digits n = ds.map hexDigit ∧ ds ≠ [] ∧ (∀ d ∈ ds, d < 10) ∧ value 10 ds = n := by
  induction n using digits.induct with
  | case1 n small =>
      refine ⟨[n], ?_, by simp, by simpa using small, by simp [value]⟩
      rw [digits, if_pos small]
      simp [hexDigit, small]
  | case2 n large ih =>
      obtain ⟨ds, written, -, below, denotes⟩ := ih
      have last : n % 10 < 10 := Nat.mod_lt n (by decide)
      refine ⟨ds ++ [n % 10], ?_, by simp, ?_, ?_⟩
      · rw [digits, if_neg large, written]
        simp [hexDigit, last]
      · intro d member
        obtain front | back := List.mem_append.mp member
        · exact below d front
        · rw [List.mem_singleton.mp back]
          exact last
      · rw [value_concat, denotes]
        omega

theorem exists_hex (count n : Nat) :
    ∃ ds, Text.hex count n = ds.map hexDigit ∧ ds.length = count ∧ (∀ d ∈ ds, d < 16) ∧
      value 16 ds = n % 16 ^ count := by
  induction count generalizing n with
  | zero => exact ⟨[], rfl, rfl, by simp, by simp [value, Nat.mod_one]⟩
  | succ count ih =>
      obtain ⟨ds, written, length, below, denotes⟩ := ih (n / 16)
      have last : n % 16 < 16 := Nat.mod_lt n (by decide)
      refine ⟨ds ++ [n % 16], ?_, by simp [length], ?_, ?_⟩
      · rw [Text.hex, written]
        simp
      · intro d member
        obtain front | back := List.mem_append.mp member
        · exact below d front
        · rw [List.mem_singleton.mp back]
          exact last
      · rw [value_concat, denotes, Nat.pow_succ', Nat.mod_mul]
        omega

theorem digits_ne_nil (n : Nat) : digits n ≠ [] := by
  obtain ⟨ds, written, nonempty, -⟩ := exists_digits n
  simpa [written] using nonempty

theorem length_digits_le {n count : Nat} (positive : 0 < count) (h : n < 10 ^ count) :
    (digits n).length ≤ count := by
  induction n using digits.induct generalizing count with
  | case1 n small =>
      rw [digits, if_pos small]
      exact positive
  | case2 n large ih =>
      obtain _ | _ | count := count
      · exact absurd positive (by decide)
      · omega
      · have front : n / 10 < 10 ^ (count + 1) := by
          rw [Nat.pow_succ] at h
          omega
        rw [digits, if_neg large, List.length_append, List.length_singleton]
        exact Nat.succ_le_succ (ih (Nat.succ_pos count) front)

theorem lt_pow_length_digits (n : Nat) : n < 10 ^ (digits n).length := by
  obtain ⟨ds, written, -, below, denotes⟩ := exists_digits n
  have bound := value_lt below
  rw [denotes] at bound
  rwa [written, List.length_map]

/-- A number lies between the powers of ten that have as many digits as it and one more. -/
theorem length_digits_bounds {n : Nat} (positive : 0 < n) :
    10 ^ ((digits n).length - 1) ≤ n ∧ n < 10 ^ (digits n).length := by
  refine ⟨?_, lt_pow_length_digits n⟩
  by_contra small
  have some_digit : 0 < (digits n).length := List.length_pos_iff.mpr (digits_ne_nil n)
  obtain one | more := Nat.eq_zero_or_pos ((digits n).length - 1)
  · rw [one, Nat.pow_zero] at small
    omega
  · have short := length_digits_le more (Nat.lt_of_not_le small)
    omega

theorem length_digits_mul {n : Nat} (nonzero : n ≠ 0) (k : Nat) :
    (digits (n * 10 ^ k)).length = (digits n).length + k := by
  induction k with
  | zero => simp
  | succ k ih =>
      have front : n * 10 ^ (k + 1) / 10 = n * 10 ^ k := by
        rw [Nat.pow_succ, ← Nat.mul_assoc, Nat.mul_div_cancel _ (by decide)]
      have positive : 0 < n * 10 ^ k := Nat.mul_pos (Nat.pos_of_ne_zero nonzero) (by positivity)
      rw [digits, if_neg (by rw [Nat.pow_succ, ← Nat.mul_assoc]; omega), List.length_append, front,
        ih, List.length_singleton, Nat.add_assoc]

/-- What tells the symbols of digits from all other marks in the texts where they are read. -/
theorem hexDigit_facts : ∀ d < 16,
    Text.digit? 16 (hexDigit d) = some d ∧ isPadding (hexDigit d) = false ∧
      hexDigit d ∉ ['-', '+', '_', 'x', 'X', '{', '}', ':', '"', '['] := by
  decide

theorem decimalDigit_facts : ∀ d < 10,
    Text.digit? 10 (hexDigit d) = some d ∧ '0'.toNat ≤ (hexDigit d).toNat ∧
      (hexDigit d).toNat ≤ '9'.toNat ∧ (hexDigit d).toNat - '0'.toNat = d := by
  decide

/-- The text of digits. -/
def symbols (ds : List Nat) : Text := Text.ofChars (ds.map hexDigit)

theorem eq_of_mem_symbols {ds : List Nat} {c : CodePoint} (member : c ∈ symbols ds) :
    ∃ d ∈ ds, c = hexDigit d := by
  simpa [symbols, Text.ofChars, eq_comm] using member

theorem hasDouble_eq_false {t : Text} (h : ∀ c ∈ t, c ≠ '_') : hasDouble t = false := by
  induction t with
  | nil => rfl
  | cons c t ih =>
      have first : c ≠ '_' := h c (by simp)
      unfold hasDouble
      split
      · next heads => simp_all
      · next heads => simp_all
      · rfl

theorem trim_eq_self {p : CodePoint → Bool} {t : Text} (first : ∀ c ∈ t.head?, p c = false)
    (last : ∀ c ∈ t.getLast?, p c = false) : Text.trim p t = t := by
  have front : t.dropWhile p = t := by
    cases t with
    | nil => rfl
    | cons c t => simp [first c rfl]
  have back : t.reverse.dropWhile p = t.reverse := by
    cases reversed : t.reverse with
    | nil => rfl
    | cons c rest =>
        have ends : p c = false := last c (by simp [← List.head?_reverse, reversed])
        simp [ends]
  rw [Text.trim, front, back, List.reverse_reverse]

theorem trim_infix (p : CodePoint → Bool) (t : Text) : Text.trim p t <:+: t := by
  have back : Text.trim p t <+: t.dropWhile p := by
    rw [Text.trim, ← List.reverse_suffix, List.reverse_reverse]
    exact List.dropWhile_suffix p
  exact back.isInfix.trans (List.dropWhile_suffix p).isInfix

/-- The code points that stand for digits lie in runs of ten at most. -/
theorem exists_run_of_digit? {base d : Nat} {c : CodePoint}
    (digit : Text.digit? base c = some d) :
    ∃ first ∈ 0x41 :: 0x61 :: Text.zeros, first ≤ c.toNat ∧ c.toNat < first + 10 := by
  obtain ⟨read, -⟩ := Option.filter_eq_some_iff.mp digit
  rw [Option.orElse_eq_orElse, Option.orElse_eq_or] at read
  obtain letter | decimal := Option.or_eq_some_iff.mp read
  · have case : (0x61 ≤ c.toNat ∧ c.toNat < 0x61 + 6) ∨ (0x41 ≤ c.toNat ∧ c.toNat < 0x41 + 6) := by
      unfold Text.letterDigit? at letter
      grind
    obtain lower | upper := case
    · exact ⟨0x61, by simp, by omega⟩
    · exact ⟨0x41, by simp, by omega⟩
  · obtain ⟨first, found, -⟩ := Option.map_eq_some_iff.mp decimal.2
    have run := List.find?_some found
    rw [Bool.and_eq_true, decide_eq_true_eq, decide_eq_true_eq] at run
    exact ⟨first, by simp [List.mem_of_find?_eq_some found], by omega⟩

/-- What stands for a digit is neither padding nor one of the marks of a numeral. -/
theorem plain_of_digit? {base d : Nat} {c : CodePoint} (digit : Text.digit? base c = some d) :
    isPadding c = false ∧ ∀ mark ∈ ['-', '+', '_', 'x', 'X'], c ≠ .char mark := by
  obtain ⟨first, listed, low, high⟩ := exists_run_of_digit? digit
  constructor
  · have solid : ∀ first ∈ 0x41 :: 0x61 :: Text.zeros, ∀ i < 10,
        Text.inRuns Text.blankRuns (first + i) = false := by decide +kernel
    have entry := solid first listed (c.toNat - first) (by omega)
    rw [Nat.add_sub_cancel' low] at entry
    rw [isPadding, Text.isBlank, entry, Bool.false_and]
  · rintro mark marked rfl
    have number : ∀ mark ∈ ['-', '+', '_', 'x', 'X'],
        (CodePoint.char mark).toNat ∈ [0x2d, 0x2b, 0x5f, 0x78, 0x58] := by simp [CodePoint.toNat]
    have outside : ∀ n ∈ [0x2d, 0x2b, 0x5f, 0x78, 0x58], ∀ first ∈ 0x41 :: 0x61 :: Text.zeros,
        ¬(first ≤ n ∧ n < first + 10) := by decide +kernel
    exact outside _ (number mark marked) first listed ⟨low, high⟩

section Reading

variable [Limits] {base : Nat} {t : Text} {ds : List Nat}

/-- A text of digits that is read in a base: each code point stands for the digit beside it, and
there are not too many of them. -/
structure Readable (base : Nat) (t : Text) (ds : List Nat) : Prop where
  nonempty : t ≠ []
  digits : t.map (Text.digit? base) = ds.map some
  short : (limit? base).any (· < ds.length) = false

theorem Readable.exists_digit (h : Readable base t ds) {c : CodePoint} (member : c ∈ t) :
    ∃ d, Text.digit? base c = some d := by
  have inside := List.mem_map_of_mem (f := Text.digit? base) member
  rw [h.digits] at inside
  obtain ⟨d, -, same⟩ := List.mem_map.mp inside
  exact ⟨d, same.symm⟩

theorem Readable.not_mark (h : Readable base t ds) {c : CodePoint} (member : c ∈ t) (mark : Char)
    (listed : mark ∈ ['-', '+', '_', 'x', 'X']) : c ≠ mark := by
  obtain ⟨d, digit⟩ := h.exists_digit member
  exact (plain_of_digit? digit).2 mark listed

theorem Readable.readMagnitude_eq (h : Readable base t ds) :
    readMagnitude base t = .ok (value base ds) := by
  have run : t.takeWhile (inRun base) = t := by
    rw [List.takeWhile_eq_self_iff]
    intro c member
    obtain ⟨d, digit⟩ := h.exists_digit member
    simp [inRun, digit]
  have digits : t.filterMap (Text.digit? base) = ds := by
    calc t.filterMap (Text.digit? base) = (t.map (Text.digit? base)).filterMap id := by
          rw [List.filterMap_map, Function.id_comp]
      _ = ds := by rw [h.digits, List.filterMap_map, Function.id_comp, List.filterMap_some]
  have spaced : isSpaced t = true := by
    have plain : ∀ c ∈ t, c ≠ '_' := fun c member => h.not_mark member '_' (by decide)
    have first : t.head? ≠ some (.char '_') :=
      fun same => plain _ (List.mem_of_mem_head? same) rfl
    have last : t.getLast? ≠ some (.char '_') :=
      fun same => plain _ (List.mem_of_mem_getLast? same) rfl
    simp [isSpaced, h.nonempty, first, last, hasDouble_eq_false plain]
  simp only [readMagnitude, run, digits, spaced, h.short]
  simp

theorem Readable.readMarked_eq (h : Readable base t ds) :
    readMarked base t = .ok (value base ds) := by
  rw [← h.readMagnitude_eq]
  unfold readMarked
  split
  · next z x rest =>
    have lower : x ≠ 'x' := h.not_mark (by simp) 'x' (by decide)
    have upper : x ≠ 'X' := h.not_mark (by simp) 'X' (by decide)
    simp [lower, upper]
  · rfl

theorem Readable.solid (h : Readable base t ds) : ∀ c ∈ t, isPadding c = false := by
  intro c member
  obtain ⟨d, digit⟩ := h.exists_digit member
  exact (plain_of_digit? digit).1

/-- Digits are read as the number that they denote. -/
theorem Readable.read_eq (h : Readable base t ds) : read base t = .ok (value base ds : Int) := by
  have trimmed : Text.trim isPadding t = t :=
    trim_eq_self (fun c head => h.solid c (List.mem_of_mem_head? head))
      fun c back => h.solid c (List.mem_of_mem_getLast? back)
  rw [read, trimmed]
  unfold readSigned
  split
  · exact absurd rfl (h.not_mark (by simp) '-' (by decide))
  · exact absurd rfl (h.not_mark (by simp) '+' (by decide))
  · rw [h.readMarked_eq]
    rfl

theorem Readable.read_neg_eq (h : Readable base t ds) :
    read base (.char '-' :: t) = .ok (-(value base ds : Int)) := by
  have trimmed : Text.trim isPadding (.char '-' :: t) = .char '-' :: t := by
    apply trim_eq_self
    · rintro c ⟨⟩
      decide
    · intro c back
      rw [List.getLast?_cons_of_ne_nil h.nonempty] at back
      exact h.solid c (List.mem_of_mem_getLast? back)
  rw [read, trimmed, readSigned, h.readMarked_eq]
  rfl

end Reading

theorem any_lt_eq_false {limit : Option Nat} {count : Nat} (short : limit.all (count ≤ ·)) :
    limit.any (· < count) = false := by
  cases limit with
  | none => rfl
  | some most =>
      rw [Option.all_some, decide_eq_true_eq] at short
      rw [Option.any_some, decide_eq_false_iff_not]
      exact Nat.not_lt.mpr short

theorem map_digit?_symbols {base : Nat} {ds : List Nat}
    (meant : ∀ d ∈ ds, Text.digit? base (hexDigit d) = some d) :
    (symbols ds).map (Text.digit? base) = ds.map some := by
  rw [symbols, Text.ofChars, List.map_map, List.map_map]
  exact List.map_congr_left meant

theorem symbols_ne_nil {ds : List Nat} (nonempty : ds ≠ []) : symbols ds ≠ [] := by
  simpa [symbols, Text.ofChars] using nonempty

theorem readable_decimal [Limits] {ds : List Nat} (nonempty : ds ≠ []) (below : ∀ d ∈ ds, d < 10)
    (short : Limits.digits.all (ds.length ≤ ·)) : Readable 10 (symbols ds) ds where
  nonempty := symbols_ne_nil nonempty
  digits := map_digit?_symbols fun d member => (decimalDigit_facts d (below d member)).1
  short := any_lt_eq_false short

theorem readable_hex [Limits] {t : Text} {ds : List Nat} (nonempty : t ≠ [])
    (digits : t.map (Text.digit? 16) = ds.map some) : Readable 16 t ds where
  nonempty := nonempty
  digits := digits
  short := rfl

/-- What is written is read back. -/
theorem read_write [Limits] {n : Int} (writable : isWritable n) : read 10 (write n) = .ok n := by
  obtain ⟨ds, written, nonempty, below, denotes⟩ := exists_digits n.natAbs
  have short : Limits.digits.all (ds.length ≤ ·) := by
    rwa [isWritable, written, List.length_map] at writable
  have readable := readable_decimal nonempty below short
  cases n with
  | ofNat n =>
      have spelled : Text.ofString (write (.ofNat n)) = symbols ds := by
        simp only [Text.ofString, write, chars, String.toList_ofList, symbols]
        exact congrArg Text.ofChars written
      rw [spelled, readable.read_eq, denotes]
      rfl
  | negSucc n =>
      have spelled : Text.ofString (write (.negSucc n)) = .char '-' :: symbols ds := by
        simp only [Text.ofString, write, chars, String.toList_ofList, symbols]
        exact congrArg (fun cs => Text.ofChars ('-' :: cs)) written
      rw [spelled, readable.read_neg_eq, denotes]
      rfl

/-- Numbers are written up to as many digits as the limit says. -/
theorem isWritable_iff [Limits] {most : Nat} (limit : Limits.digits = some most)
    (positive : 0 < most) {n : Int} : isWritable n ↔ n.natAbs < 10 ^ most := by
  rw [isWritable, limit, Option.all_some, decide_eq_true_eq]
  refine ⟨fun short => ?_, length_digits_le positive⟩
  calc n.natAbs < 10 ^ (digits n.natAbs).length := lt_pow_length_digits _
    _ ≤ 10 ^ most := Nat.pow_le_pow_right (by decide) short

theorem isWritable_pow_eq_false [Limits] {most : Nat} (limit : Limits.digits = some most)
    (positive : 0 < most) : isWritable (10 ^ most) = false := by
  rw [← Bool.not_eq_true, isWritable_iff limit positive, Int.natAbs_pow]
  exact lt_irrefl _

/-- Where nobody has set another limit, numbers of up to twenty digits are written. -/
theorem isWritable_of_natAbs_lt {n : Int} (h : n.natAbs < 10 ^ 20) : isWritable n := by
  have length := length_digits_le (by decide) h
  change decide ((digits n.natAbs).length ≤ 4300) = true
  rw [decide_eq_true_eq]
  omega

theorem isWritable_of_natAbs_le [Limits] {m n : Int} (smaller : m.natAbs ≤ n.natAbs)
    (writable : isWritable n) : isWritable m := by
  rw [isWritable] at writable ⊢
  cases limit : Limits.digits with
  | none => rfl
  | some most =>
      rw [limit, Option.all_some, decide_eq_true_eq] at writable
      rw [Option.all_some, decide_eq_true_eq]
      have positive := List.length_pos_iff.mpr (digits_ne_nil n.natAbs)
      exact (length_digits_le positive (smaller.trans_lt (lt_pow_length_digits _))).trans writable

/-- No digit stands in front. -/
def IsPast (rest : Text) : Prop :=
  ∀ c ∈ rest.head?, ¬('0'.toNat ≤ c.toNat ∧ c.toNat ≤ '9'.toNat)

theorem digitRun_symbols {ds : List Nat} (below : ∀ d ∈ ds, d < 10) {rest : Text}
    (past : IsPast rest) : digitRun (symbols ds ++ rest) = (symbols ds, rest) := by
  unfold digitRun
  have digit : ∀ c ∈ symbols ds,
      (decide ('0'.toNat ≤ c.toNat) && decide (c.toNat ≤ '9'.toNat)) = true := by
    intro c member
    obtain ⟨d, inside, rfl⟩ := eq_of_mem_symbols member
    obtain ⟨-, low, high, -⟩ := decimalDigit_facts d (below d inside)
    rw [Bool.and_eq_true, decide_eq_true_eq, decide_eq_true_eq]
    exact ⟨low, high⟩
  have stop : ∀ c ∈ rest.head?,
      (decide ('0'.toNat ≤ c.toNat) && decide (c.toNat ≤ '9'.toNat)) = false := by
    intro c head
    have outside := past c head
    rwa [← Bool.not_eq_true, Bool.and_eq_true, decide_eq_true_eq, decide_eq_true_eq]
  simp only [List.takeWhile_append_of_pos digit, List.dropWhile_append_of_pos digit]
  cases rest with
  | nil => simp
  | cons c rest =>
      have ends := stop c rfl
      simp only [List.takeWhile_cons, List.dropWhile_cons, ends]
      simp

theorem ofDigits_symbols {ds : List Nat} (below : ∀ d ∈ ds, d < 10) :
    ofDigits (symbols ds) = value 10 ds := by
  rw [ofDigits, symbols, Text.ofChars, List.map_map, List.map_map]
  have each : ds.map (((fun c : CodePoint => c.toNat - '0'.toNat) ∘ CodePoint.char) ∘ hexDigit) =
      ds.map id := by
    apply List.map_congr_left
    intro d member
    exact (decimalDigit_facts d (below d member)).2.2.2
  rw [each, List.map_id]

theorem ofDigits_digits (n : Nat) : ofDigits (Text.ofChars (digits n)) = n := by
  obtain ⟨ds, written, -, below, denotes⟩ := exists_digits n
  rw [written]
  exact (ofDigits_symbols below).trans denotes

theorem digits_injective {m n : Nat} (same : digits m = digits n) : m = n := by
  rw [← ofDigits_digits m, same, ofDigits_digits]

theorem isDigit_of_mem_digits {n : Nat} {c : Char} (member : c ∈ digits n) : c.isDigit := by
  obtain ⟨ds, written, -, below, -⟩ := exists_digits n
  rw [written] at member
  obtain ⟨d, inside, rfl⟩ := List.mem_map.mp member
  have each : ∀ d < 10, (hexDigit d).isDigit := by decide
  exact each d (below d inside)

theorem hyphen_not_mem_digits (n : Nat) : '-' ∉ digits n := by
  intro member
  exact absurd (isDigit_of_mem_digits member) (by decide)

/-- Different integers have different decimal forms, without a limit on their digits. -/
theorem chars_injective {m n : Int} (same : chars m = chars n) : m = n := by
  cases m with
  | ofNat m =>
      cases n with
      | ofNat n => exact congrArg Int.ofNat (digits_injective same)
      | negSucc n =>
          have sign : '-' ∈ digits m := by
            rw [show digits m = '-' :: digits (n + 1) from same]
            exact List.mem_cons_self
          exact absurd sign (hyphen_not_mem_digits m)
  | negSucc m =>
      cases n with
      | ofNat n =>
          have sign : '-' ∈ digits n := by
            rw [show digits n = '-' :: digits (m + 1) from same.symm]
            exact List.mem_cons_self
          exact absurd sign (hyphen_not_mem_digits n)
      | negSucc n =>
          have successor := digits_injective (List.cons.inj same).2
          exact congrArg Int.negSucc (Nat.succ.inj successor)

theorem chars_ne_nil (n : Int) : chars n ≠ [] := by
  cases n with
  | ofNat n => exact digits_ne_nil n
  | negSucc n => exact List.cons_ne_nil _ _

/-- A word of 64 bits has at most nineteen digits and a minus sign. -/
theorem length_chars_le {n : Int} (low : -2 ^ 63 ≤ n) (high : n < 2 ^ 63) :
    (chars n).length ≤ 20 := by
  cases n with
  | ofNat n =>
      rw [Int.ofNat_eq_natCast] at high
      have short : (digits n).length ≤ 19 := length_digits_le (by decide) (by omega)
      exact Nat.le_succ_of_le short
  | negSucc n =>
      have short : (digits (n + 1)).length ≤ 19 := length_digits_le (by decide) (by omega)
      exact Nat.succ_le_succ short

/-- What stands in front of a decimal: digits, behind a minus sign at most. -/
def IsSignedRun (t : List Char) : Prop :=
  ∃ ds : List Char, (t = ds ∨ t = '-' :: ds) ∧ ∀ c ∈ ds, c.isDigit

theorem front_of_digits {n : Nat} {t : List Char} {rest : Int}
    (cut : digits n = t ++ chars rest) : (∀ c ∈ t, c.isDigit) ∧ 0 ≤ rest := by
  refine ⟨fun c member => ?_, ?_⟩
  · refine isDigit_of_mem_digits (n := n) ?_
    rw [cut]
    exact List.mem_append_left _ member
  · cases rest with
    | ofNat rest => exact Int.natCast_nonneg rest
    | negSucc rest =>
        have sign : '-' ∈ digits n := by
          rw [cut]
          exact List.mem_append_right _ List.mem_cons_self
        exact absurd sign (hyphen_not_mem_digits n)

/-- Where a decimal ends in another one, what stands in front of that one is a run of digits with
its sign, and that one has no sign. -/
theorem front_of_chars {n rest : Int} {t : List Char} (nonempty : t ≠ [])
    (cut : chars n = t ++ chars rest) : IsSignedRun t ∧ 0 ≤ rest := by
  cases n with
  | ofNat n =>
      obtain ⟨run, positive⟩ := front_of_digits cut
      exact ⟨⟨t, .inl rfl, run⟩, positive⟩
  | negSucc n =>
      obtain _ | ⟨sign, t⟩ := t
      · exact absurd rfl nonempty
      · obtain ⟨rfl, behind⟩ := List.cons.inj cut
        obtain ⟨run, positive⟩ := front_of_digits behind
        exact ⟨⟨t, .inr rfl, run⟩, positive⟩

end BearerToken.Numeral

import Mathlib
import BearerToken.Proofs.Codec.Layout

/-!
# The texts of payloads

Strict base64url is a bijection between byte strings and the texts that are read. A text that is not
read fails in one of three ways: it holds a code point outside the alphabet, which padding is too;
it has a length that no byte string has; or its last symbol sets bits that no byte takes up. All of
it is said of the six-bit values that the symbols of a text stand for.
-/

namespace BearerToken

namespace Base64Url

/-- An ASCII letter or digit, a hyphen or an underscore. -/
def IsSymbol (c : Char) : Prop := c.isAlphanum ∨ c = '-' ∨ c = '_'

instance (c : Char) : Decidable (IsSymbol c) := inferInstanceAs (Decidable (_ ∨ _))

theorem isSome_value?_iff {c : Char} : (value? c).isSome ↔ IsSymbol c := by
  have upper : 'A' ≤ c ∧ c ≤ 'Z' ↔ c.isUpper := by simp [Char.isUpper, Char.le_def]
  have lower : 'a' ≤ c ∧ c ≤ 'z' ↔ c.isLower := by simp [Char.isLower, Char.le_def]
  have digit : '0' ≤ c ∧ c ≤ '9' ↔ c.isDigit := by simp [Char.isDigit, Char.le_def]
  simp only [value?, upper, lower, digit, IsSymbol, Char.isAlphanum, Char.isAlpha]
  split_ifs <;> simp_all

theorem toNat_lt_of_value? {c : Char} {n : Nat} (read : value? c = some n) : c.toNat < 128 := by
  unfold value? at read
  split_ifs at read with upper lower digit hyphen underscore
  · exact Nat.lt_of_le_of_lt (Char.le_def.mp upper.2) (by decide)
  · exact Nat.lt_of_le_of_lt (Char.le_def.mp lower.2) (by decide)
  · exact Nat.lt_of_le_of_lt (Char.le_def.mp digit.2) (by decide)
  · rw [hyphen]
    decide
  · rw [underscore]
    decide

theorem symbol_of_value? {c : Char} {n : Nat} (read : value? c = some n) :
    n < 64 ∧ symbol n = c := by
  have table : ∀ k < 128, ∀ n ∈ value? (Char.ofNat k), n < 64 ∧ symbol n = Char.ofNat k := by
    decide
  have entry := table c.toNat (toNat_lt_of_value? read) n
  rw [Char.ofNat_toNat] at entry
  exact entry read

theorem symbol_inj {m n : Nat} (small : m < 64) (small' : n < 64) :
    symbol m = symbol n ↔ m = n := by
  refine ⟨fun same => ?_, congrArg symbol⟩
  have read := value?_symbol small
  rw [same, value?_symbol small'] at read
  exact (Option.some.inj read).symm

theorem isSymbol_symbol {n : Nat} (small : n < 64) : IsSymbol (symbol n) := by
  rw [← isSome_value?_iff, value?_symbol small]
  rfl

/-- The symbols of a text stand for these values. -/
def Writes (values : List Nat) (text : List Char) : Prop :=
  (∀ n ∈ values, n < 64) ∧ text = values.map symbol

theorem mapM_value?_eq_some_iff {text : List Char} {values : List Nat} :
    text.mapM value? = some values ↔ Writes values text := by
  induction text generalizing values with
  | nil => cases values <;> simp [Writes]
  | cons c text ih =>
      rw [List.mapM_cons]
      constructor
      · intro read
        obtain ⟨n, first, read⟩ := Option.bind_eq_some_iff.mp read
        obtain ⟨ns, rest, same⟩ := Option.bind_eq_some_iff.mp read
        cases same
        obtain ⟨below, spelled⟩ := ih.mp rest
        obtain ⟨small, same⟩ := symbol_of_value? first
        exact ⟨List.forall_mem_cons.mpr ⟨small, below⟩, by rw [List.map_cons, same, ← spelled]⟩
      · rintro ⟨below, spelled⟩
        obtain _ | ⟨n, ns⟩ := values
        · cases spelled
        obtain ⟨rfl, rfl⟩ := List.cons.inj spelled
        obtain ⟨small, below⟩ := List.forall_mem_cons.mp below
        rw [value?_symbol small, ih.mpr ⟨below, rfl⟩]
        rfl

theorem Writes.unique {text : List Char} {values values' : List Nat} (writes : Writes values text)
    (writes' : Writes values' text) : values = values' := by
  have read := mapM_value?_eq_some_iff.mpr writes
  rw [mapM_value?_eq_some_iff.mpr writes'] at read
  exact (Option.some.inj read).symm

theorem Writes.isSymbol {text : List Char} {values : List Nat} (writes : Writes values text) :
    ∀ c ∈ text, IsSymbol c := by
  obtain ⟨below, rfl⟩ := writes
  intro c member
  obtain ⟨n, inside, rfl⟩ := List.mem_map.mp member
  exact isSymbol_symbol (below n inside)

theorem exists_writes {text : List Char} (symbols : ∀ c ∈ text, IsSymbol c) :
    ∃ values, Writes values text := by
  have valued : ∀ c ∈ text, ∃ n, value? c = some n := fun c member =>
    Option.isSome_iff_exists.mp (isSome_value?_iff.mpr (symbols c member))
  refine ⟨text.map fun c => (value? c).getD 0, ?_, ?_⟩
  · intro n member
    obtain ⟨c, inside, rfl⟩ := List.mem_map.mp member
    obtain ⟨n, read⟩ := valued c inside
    rw [read]
    exact (symbol_of_value? read).1
  · rw [List.map_map]
    refine (List.map_id text).symm.trans (List.map_congr_left fun c inside => ?_)
    obtain ⟨n, read⟩ := valued c inside
    rw [Function.comp_apply, read]
    exact (symbol_of_value? read).2.symm

/-- The values of what is written. -/
theorem exists_writes_encode (bs : Bytes) : ∃ values, Writes values (encode bs) := by
  obtain ⟨values, read, -⟩ := mapM_value?_encode bs
  exact ⟨values, mapM_value?_eq_some_iff.mp read⟩

theorem length_encode (bs : Bytes) : (encode bs).length = 4 * bs.length ⌈/⌉ 3 := by
  rw [Nat.ceilDiv_eq_add_pred_div]
  fun_induction encode bs with
  | case1 a b c rest ih =>
      simp only [List.length_cons, ih]
      omega
  | case2 | case3 | case4 => simp

theorem gather_eq_none_iff {values : List Nat} : gather values = none ↔ values.length % 4 = 1 := by
  fun_induction gather values with
  | case1 a b c d rest ih =>
      rw [Option.map_eq_none_iff, ih]
      simp only [List.length_cons]
      omega
  | case2 | case3 | case4 | case5 => simp

/-- The last value has bits beyond the last whole byte, and sets some of them. -/
def Overhangs (values : List Nat) : Prop :=
  ∃ n ∈ values.getLast?,
    (values.length % 4 = 2 ∧ n % 16 ≠ 0) ∨ (values.length % 4 = 3 ∧ n % 4 ≠ 0)

theorem overhangs_group {a b c d : Nat} {rest : List Nat} :
    Overhangs (a :: b :: c :: d :: rest) ↔ Overhangs rest := by
  cases rest with
  | nil => simp [Overhangs]
  | cons e rest =>
      have length : (a :: b :: c :: d :: e :: rest).length % 4 = (e :: rest).length % 4 :=
        Nat.add_mod_right (e :: rest).length 4
      rw [Overhangs, length]
      simp only [List.getLast?_cons_cons, Overhangs]

theorem toNat_toUInt8 {n : Nat} (small : n < 256) : n.toUInt8.toNat = n := by
  rw [Nat.toUInt8, UInt8.toNat_ofNat_of_lt' small]

/-- Writing gives back the values that were read, unless the last one overhangs. -/
theorem encode_gathered_iff {values : List Nat} {bs : Bytes} (below : ∀ n ∈ values, n < 64)
    (gathered : gather values = some bs) :
    encode bs = values.map symbol ↔ ¬Overhangs values := by
  fun_induction gather values generalizing bs with
  | case1 a b c d rest ih =>
      obtain ⟨cs, gathered_rest, rfl⟩ := Option.map_eq_some_iff.mp gathered
      simp only [List.forall_mem_cons] at below
      obtain ⟨a_small, b_small, c_small, d_small, below⟩ := below
      have first : (a * 4 + b / 16) / 4 = a := by omega
      have second : (a * 4 + b / 16) % 4 * 16 + (b % 16 * 16 + c / 4) / 16 = b := by omega
      have third : (b % 16 * 16 + c / 4) % 16 * 4 + (c % 4 * 64 + d) / 64 = c := by omega
      have fourth : (c % 4 * 64 + d) % 64 = d := by omega
      rw [encode, toNat_toUInt8 (n := a * 4 + b / 16) (by omega),
        toNat_toUInt8 (n := b % 16 * 16 + c / 4) (by omega),
        toNat_toUInt8 (n := c % 4 * 64 + d) (by omega), first, second, third, fourth,
        overhangs_group, ← ih below gathered_rest]
      simp
  | case2 a b c =>
      cases gathered
      simp only [List.forall_mem_cons] at below
      obtain ⟨a_small, b_small, c_small, -⟩ := below
      have first : (a * 4 + b / 16) / 4 = a := by omega
      have second : (a * 4 + b / 16) % 4 * 16 + (b % 16 * 16 + c / 4) / 16 = b := by omega
      have third : (b % 16 * 16 + c / 4) % 16 * 4 = c / 4 * 4 := by omega
      have last : Overhangs [a, b, c] ↔ c % 4 ≠ 0 := by simp [Overhangs]
      rw [encode, toNat_toUInt8 (n := a * 4 + b / 16) (by omega),
        toNat_toUInt8 (n := b % 16 * 16 + c / 4) (by omega), first, second, third, last]
      simp only [List.map_cons, List.map_nil, List.cons.injEq, true_and, and_true]
      rw [symbol_inj (by omega) c_small]
      omega
  | case3 a b =>
      cases gathered
      simp only [List.forall_mem_cons] at below
      obtain ⟨a_small, b_small, -⟩ := below
      have first : (a * 4 + b / 16) / 4 = a := by omega
      have second : (a * 4 + b / 16) % 4 * 16 = b / 16 * 16 := by omega
      have last : Overhangs [a, b] ↔ b % 16 ≠ 0 := by simp [Overhangs]
      rw [encode, toNat_toUInt8 (n := a * 4 + b / 16) (by omega), first, second, last]
      simp only [List.map_cons, List.map_nil, List.cons.injEq, true_and, and_true]
      rw [symbol_inj (by omega) b_small]
      omega
  | case4 a => cases gathered
  | case5 =>
      cases gathered
      simp [encode, Overhangs]

theorem decode_foreign {text : List Char} (foreign : ¬∀ c ∈ text, IsSymbol c) :
    decode text = .error .notBase64url := by
  cases read : text.mapM value? with
  | none => simp [decode, read]
  | some values => exact absurd (mapM_value?_eq_some_iff.mp read).isSymbol foreign

section Spelled

variable {text : List Char} {values : List Nat}

theorem Writes.notBase64url_iff (writes : Writes values text) :
    decode text = .error .notBase64url ↔ text.length % 4 = 1 := by
  have read := mapM_value?_eq_some_iff.mpr writes
  rw [writes.2, List.length_map, ← gather_eq_none_iff, ← writes.2, decode, read, Option.bind_some]
  cases gather values with
  | none => simp
  | some bs =>
      simp only
      split <;> simp

theorem Writes.notCanonical_iff (writes : Writes values text) :
    decode text = .error .notCanonical ↔ Overhangs values := by
  have read := mapM_value?_eq_some_iff.mpr writes
  rw [decode, read, Option.bind_some]
  cases gathered : gather values with
  | none => simp [Overhangs, gather_eq_none_iff.mp gathered]
  | some bs =>
      have canonical := encode_gathered_iff writes.1 gathered
      rw [← writes.2] at canonical
      simp only
      split
      · next same => simpa using canonical.mp same
      · next other => simpa using not_not.mp (canonical.not.mp other)

end Spelled

end Base64Url

namespace Codec

open Base64Url (IsSymbol Writes Overhangs)

/-- Every code point is a character of the alphabet. -/
def InAlphabet (t : Text) : Prop := ∀ c ∈ t, ∃ a : Char, c = .char a ∧ IsSymbol a

variable {t : Text}

@[simp] theorem inAlphabet_ofChars {cs : List Char} :
    InAlphabet (Text.ofChars cs) ↔ ∀ c ∈ cs, IsSymbol c := by
  simp [InAlphabet, Text.ofChars]

theorem InAlphabet.exists_chars (inside : InAlphabet t) : ∃ cs, t = Text.ofChars cs := by
  induction t with
  | nil => exact ⟨[], rfl⟩
  | cons c t ih =>
      obtain ⟨⟨a, rfl, -⟩, rest⟩ := List.forall_mem_cons.mp inside
      obtain ⟨cs, rfl⟩ := ih rest
      exact ⟨a :: cs, rfl⟩

theorem InAlphabet.exists_writes (inside : InAlphabet t) :
    ∃ text values, t = Text.ofChars text ∧ Writes values text := by
  obtain ⟨text, rfl⟩ := inside.exists_chars
  obtain ⟨values, writes⟩ := Base64Url.exists_writes (inAlphabet_ofChars.mp inside)
  exact ⟨text, values, rfl, writes⟩

theorem payloadOf_foreign (foreign : ¬InAlphabet t) :
    payloadOf t = .error (.malformed .notBase64url) := by
  cases chars : t.chars? with
  | none => rw [payloadOf, chars, Option.map_none]
  | some cs =>
      rw [Text.eq_ofChars_of_chars? chars, inAlphabet_ofChars] at foreign
      rw [payloadOf, chars, Option.map_some, Base64Url.decode_foreign foreign]

/-- A text of characters is refused for the reason for which its characters are. -/
theorem payloadOf_ofChars_iff (text : List Char) :
    (payloadOf (Text.ofChars text) = .error (.malformed .notBase64url) ↔
      Base64Url.decode text = .error .notBase64url) ∧
    (payloadOf (Text.ofChars text) = .error (.malformed .notCanonical) ↔
      Base64Url.decode text = .error .notCanonical) := by
  rw [payloadOf, Text.chars?_ofChars, Option.map_some]
  cases Base64Url.decode text with
  | ok bs => simp
  | error fault => cases fault <;> simp

/-- A text is no base64url if it holds what is foreign to it, or has a length without a meaning. -/
theorem payloadOf_notBase64url_iff :
    payloadOf t = .error (.malformed .notBase64url) ↔ ¬InAlphabet t ∨ t.length % 4 = 1 := by
  by_cases inside : InAlphabet t
  · obtain ⟨text, values, rfl, writes⟩ := inside.exists_writes
    rw [(payloadOf_ofChars_iff text).1, writes.notBase64url_iff, Text.ofChars, List.length_map]
    exact (or_iff_right (not_not.mpr inside)).symm
  · simp [inside, payloadOf_foreign inside]

/-- A text is no canonical base64url if its last symbol sets bits that no byte takes up. -/
theorem payloadOf_notCanonical_iff :
    payloadOf t = .error (.malformed .notCanonical) ↔
      ∃ values, (∀ n ∈ values, n < 64) ∧ t = Text.ofChars (values.map Base64Url.symbol) ∧
        Overhangs values := by
  constructor
  · intro refused
    by_cases inside : InAlphabet t
    · obtain ⟨text, values, rfl, writes⟩ := inside.exists_writes
      rw [(payloadOf_ofChars_iff text).2, writes.notCanonical_iff] at refused
      exact ⟨values, writes.1, congrArg Text.ofChars writes.2, refused⟩
    · rw [payloadOf_foreign inside] at refused
      cases refused
  · rintro ⟨values, below, rfl, overhangs⟩
    rw [(payloadOf_ofChars_iff _).2, Writes.notCanonical_iff ⟨below, rfl⟩]
    exact overhangs

theorem exists_malformed_iff :
    (∃ cause, payloadOf t = .error (.malformed cause)) ↔
      ∀ bs, t ≠ Text.ofChars (Base64Url.encode bs) := by
  constructor
  · rintro ⟨cause, refused⟩ bs rfl
    rw [payloadOf_eq_ok_iff.mpr rfl] at refused
    cases refused
  · intro other
    obtain ⟨bs, read⟩ | refused := payloadOf_cases t
    · exact absurd (payloadOf_eq_ok_iff.mp read) (other bs)
    · exact refused

/-- Byte strings and the texts that are read are in bijection, and what is not read is malformed in
one of the ways there are. -/
theorem payloadOf_bijective :
    (∀ bs : Bytes, payloadOf (Text.ofChars (Base64Url.encode bs)) = .ok bs ∧
      (∀ c ∈ Base64Url.encode bs, IsSymbol c) ∧
      (Base64Url.encode bs).length = 4 * bs.length ⌈/⌉ 3) ∧
    ∀ t : Text, (∀ bs, payloadOf t = .ok bs ↔ t = Text.ofChars (Base64Url.encode bs)) ∧
      ((∃ cause, payloadOf t = .error (.malformed cause)) ↔
        ∀ bs, t ≠ Text.ofChars (Base64Url.encode bs)) ∧
      (payloadOf t = .error (.malformed .notBase64url) ↔ ¬InAlphabet t ∨ t.length % 4 = 1) ∧
      (payloadOf t = .error (.malformed .notCanonical) ↔
        ∃ values, (∀ n ∈ values, n < 64) ∧ t = Text.ofChars (values.map Base64Url.symbol) ∧
          Overhangs values) := by
  refine ⟨fun bs => ⟨payloadOf_eq_ok_iff.mpr rfl, ?_, Base64Url.length_encode bs⟩, fun t =>
    ⟨fun bs => payloadOf_eq_ok_iff, exists_malformed_iff, payloadOf_notBase64url_iff,
      payloadOf_notCanonical_iff⟩⟩
  obtain ⟨values, writes⟩ := Base64Url.exists_writes_encode bs
  exact writes.isSymbol

/-- Two bytes, of which the last one ends in the middle of a symbol; and the texts beside theirs: a
padded one, one with a symbol too few and one whose last symbol sets a spare bit. -/
theorem payloadOf_bijective_padded :
    Base64Url.encode [0xfb, 0xff] = ['-', '_', '8'] ∧ '-' ∈ Base64Url.encode [0xfb, 0xff] ∧
      IsSymbol '-' ∧ payloadOf "-_8" = .ok [0xfb, 0xff] ∧
      payloadOf "-_8=" = .error (.malformed .notBase64url) ∧
      payloadOf "-_8-_" = .error (.malformed .notBase64url) ∧
      payloadOf "-_9" = .error (.malformed .notCanonical) := by
  obtain ⟨writes, reads⟩ := payloadOf_bijective
  have member : '-' ∈ Base64Url.encode [0xfb, 0xff] := by decide
  refine ⟨by decide, member, (writes [0xfb, 0xff]).2.1 '-' member, (reads _).1 _ |>.mpr (by decide),
    (reads _).2.2.1.mpr (.inl ?_), (reads _).2.2.1.mpr (.inr (by decide)),
    (reads _).2.2.2.mpr ⟨[62, 63, 61], by decide, by decide, 61, rfl, .inr (by decide)⟩⟩
  intro inside
  obtain ⟨a, same, symbol⟩ := inside (.char '=') (by decide)
  cases same
  exact absurd symbol (by decide)

end Codec

end BearerToken

import Mathlib
import BearerToken.Json.Reader
import BearerToken.Json.Writer

/-!
# Strings in JSON

A written string is read as its text, except that two halves of a surrogate pair that stand side by
side come back as the character that they stand for.
-/

namespace BearerToken

/-- The text with the halves of pairs that stand side by side joined. -/
def Text.joined : Text → Text
  | .surrogate a :: .surrogate b :: t =>
    match ofPair? (0xd800 + a.val) (0xd800 + b.val) with
    | some c => .char c :: joined t
    | none => .surrogate a :: joined (.surrogate b :: t)
  | c :: t => c :: joined t
  | [] => []

namespace Text

theorem head_joined (n : Fin 0x800) (t : Text) :
    ∃ t', joined (.surrogate n :: t) = .surrogate n :: t' ∨
      ∃ c, joined (.surrogate n :: t) = .char c :: t' := by
  cases t with
  | nil => exact ⟨[], .inl rfl⟩
  | cons c t =>
      cases c with
      | char c => exact ⟨_, .inl rfl⟩
      | surrogate m =>
          rw [joined]
          split
          · exact ⟨_, .inr ⟨_, rfl⟩⟩
          · exact ⟨_, .inl rfl⟩

/-- Joining leaves no halves to join. -/
@[simp] theorem joined_joined (t : Text) : joined (joined t) = joined t := by
  induction t using joined.induct with
  | case1 a b t c pair ih => simp [joined, pair, ih]
  | case2 a b t none ih =>
      rw [show joined (.surrogate a :: .surrogate b :: t) =
        .surrogate a :: joined (.surrogate b :: t) by simp [joined, none]]
      obtain ⟨t', heads | ⟨c, heads⟩⟩ := head_joined b t
      · rw [heads] at ih ⊢
        simp [joined, none, ih]
      · rw [heads] at ih ⊢
        simpa [joined] using ih
  | case3 c t last ih =>
      have alone : joined (c :: t) = c :: joined t := by
        rw [joined]
        exact last
      rw [alone]
      cases c with
      | char c => simp [joined, ih]
      | surrogate n =>
          cases t with
          | nil => rfl
          | cons c t =>
              cases c with
              | char c => simpa [joined] using ih
              | surrogate m => exact (last n m t rfl rfl).elim
  | case4 => rfl

@[simp] theorem joined_ofChars (cs : List Char) : joined (ofChars cs) = ofChars cs := by
  induction cs with
  | nil => rfl
  | cons c cs ih => exact congrArg (CodePoint.char c :: ·) ih

theorem joined_ne_nil {t : Text} (filled : t ≠ []) : joined t ≠ [] := by
  induction t using joined.induct with
  | case1 a b t c pair ih => simp [joined, pair]
  | case2 a b t none ih => simp [joined, none]
  | case3 c t last ih =>
      rw [joined]
      · exact List.cons_ne_nil _ _
      · exact last
  | case4 => exact absurd rfl filled

theorem ofList_ne_nil {cs : List Char} (filled : cs ≠ []) :
    (String.ofList cs : Text) ≠ [] := by
  rw [ofString_ofList]
  intro empty
  exact filled (List.map_eq_nil_iff.mp empty)

end Text

namespace Json

open Text (hexDigit ofUnit ofPair? units)

theorem hexValue_hexDigit : ∀ d < 16, hexValue? (hexDigit d) = some d := by
  decide

/-- The escape of a unit. -/
def escape (u : Nat) : Text := .char '\\' :: .char 'u' :: Text.ofChars (Text.hex 4 u)

theorem exists_escape {u : Nat} (h : u < 0x10000) :
    ∃ a b c d, escape u = [.char '\\', .char 'u', a, b, c, d] ∧ hexUnit? a b c d = some u := by
  refine ⟨hexDigit (u / 16 / 16 / 16 % 16), hexDigit (u / 16 / 16 % 16), hexDigit (u / 16 % 16),
    hexDigit (u % 16), rfl, ?_⟩
  have digit (n : Nat) : hexValue? (hexDigit (n % 16)) = some (n % 16) :=
    hexValue_hexDigit _ (Nat.mod_lt n (by decide))
  simp only [hexUnit?, digit, Option.bind_eq_bind, Option.bind_some, Option.pure_def]
  congr 1
  omega

/-- An escape that makes no pair with what follows is its unit. -/
theorem readText_escape {u : Nat} (h : u < 0x10000) {t : Text}
    (alone : ∀ a b c d rest, t = .char '\\' :: .char 'u' :: a :: b :: c :: d :: rest →
      (hexUnit? a b c d).bind (ofPair? u) = none) :
    readText (escape u ++ t) = (readText t).map (prepend (ofUnit u)) := by
  obtain ⟨a, b, c, d, spelled, unit⟩ := exists_escape h
  rw [spelled]
  simp only [List.cons_append, List.nil_append]
  rw [readText, unit]
  simp only [Option.bind_eq_bind, Option.bind_some]
  split
  · next a b c d behind =>
    rw [alone a b c d behind rfl]
  · rfl

/-- Two escapes that name the halves of a pair are one character. -/
theorem readText_pair {u v : Nat} (hu : u < 0x10000) (hv : v < 0x10000) {c : Char}
    (pair : ofPair? u v = some c) (t : Text) :
    readText (escape u ++ (escape v ++ t)) = (readText t).map (prepend c) := by
  obtain ⟨_, _, _, _, first, unit⟩ := exists_escape hu
  obtain ⟨_, _, _, _, second, unit'⟩ := exists_escape hv
  rw [first, second]
  simp only [List.cons_append, List.nil_append]
  rw [readText, unit]
  simp only [Option.bind_eq_bind, Option.bind_some, unit', pair]

theorem readText_short {c letter : Char} (short : (c, letter) ∈ shortEscapes) (t : Text) :
    readText (.char '\\' :: .char letter :: t) = (readText t).map (prepend c) := by
  simp only [shortEscapes, List.mem_cons, Prod.mk.injEq, List.not_mem_nil, or_false] at short
  obtain h | h | h | h | h | h | h := short
  all_goals
    obtain ⟨rfl, rfl⟩ := h
    simp [readText, shortEscape?]

theorem readText_plain {c : CodePoint} (visible : 0x20 ≤ c.toNat) (quote : c ≠ .char '"')
    (backslash : c ≠ .char '\\') (t : Text) :
    readText (c :: t) = (readText t).map (prepend c) := by
  rw [readText.eq_def]
  split
  · next heads => simp at heads
  · next heads => simp_all
  · next heads => simp_all
  · next heads => simp_all
  · next heads =>
    obtain ⟨rfl, rfl⟩ := List.cons.inj heads
    have low : ¬c.toNat < 0x20 := by omega
    simp [low, backslash]

theorem ofPair_of_not_high {u : Nat} (h : ¬(0xd800 ≤ u ∧ u < 0xdc00)) (v : Nat) :
    ofPair? u v = none := by
  rw [ofPair?, if_neg]
  simp only [Bool.and_eq_true, decide_eq_true_eq]
  tauto

theorem ofPair_of_not_low {v : Nat} (h : ¬(0xdc00 ≤ v ∧ v < 0xe000)) (u : Nat) :
    ofPair? u v = none := by
  rw [ofPair?, if_neg]
  simp only [Bool.and_eq_true, decide_eq_true_eq]
  tauto

/-- A character is no surrogate. -/
theorem toNat_char (c : Char) : c.toNat < 0xd800 ∨ 0xdfff < c.toNat ∧ c.toNat < 0x110000 :=
  c.valid

/-- The halves of a character beyond the units make it up again. -/
theorem ofPair_units {c : Char} (astral : 0x10000 ≤ c.toNat) :
    ofPair? (0xd800 + (c.toNat - 0x10000) / 0x400) (0xdc00 + (c.toNat - 0x10000) % 0x400) =
      some c := by
  have range := toNat_char c
  have whole : 0x10000 + (0xd800 + (c.toNat - 0x10000) / 0x400 - 0xd800) * 0x400 +
      (0xdc00 + (c.toNat - 0x10000) % 0x400 - 0xdc00) = c.toNat := by omega
  rw [ofPair?, if_pos, whole, Char.ofNat_toNat]
  simp only [Bool.and_eq_true, decide_eq_true_eq]
  omega

/-- The four forms in which a character is written. -/
theorem writePoint_cases (c : Char) :
    (∃ letter, (c, letter) ∈ shortEscapes ∧
      Text.ofChars (writePoint (.char c)) = [.char '\\', .char letter]) ∨
    (0x20 ≤ c.toNat ∧ c ≠ '"' ∧ c ≠ '\\' ∧ Text.ofChars (writePoint (.char c)) = [.char c]) ∨
    (c.toNat < 0x10000 ∧ Text.ofChars (writePoint (.char c)) = escape c.toNat) ∨
    (0x10000 ≤ c.toNat ∧ Text.ofChars (writePoint (.char c)) =
      escape (0xd800 + (c.toNat - 0x10000) / 0x400) ++
        escape (0xdc00 + (c.toNat - 0x10000) % 0x400)) := by
  rw [writePoint]
  cases short : shortEscapes.lookup c with
  | some letter =>
      obtain ⟨before, after, listed, -⟩ := List.lookup_eq_some_iff.mp short
      exact .inl ⟨letter, by simp [listed], rfl⟩
  | none =>
      refine .inr ?_
      by_cases printable : (decide (' ' ≤ c) && decide (c ≤ '~')) = true
      · refine .inl ⟨?_, ?_, ?_, by simp [printable, Text.ofChars]⟩
        · simp only [Bool.and_eq_true, decide_eq_true_eq] at printable
          exact printable.1
        · rintro rfl
          exact absurd short (by decide)
        · rintro rfl
          exact absurd short (by decide)
      · refine .inr ?_
        simp only [printable]
        by_cases astral : 0x10000 ≤ c.toNat
        · refine .inr ⟨astral, ?_⟩
          simp [writeUnits, units, CodePoint.toNat, Nat.not_lt.mpr astral, escape, Text.ofChars]
        · refine .inl ⟨Nat.not_le.mp astral, ?_⟩
          simp [writeUnits, units, CodePoint.toNat, Nat.not_le.mp astral, escape, Text.ofChars]

/-- A written character is read as itself, whatever follows. -/
theorem readText_char (c : Char) (t : Text) :
    readText (Text.ofChars (writePoint (.char c)) ++ t) = (readText t).map (prepend c) := by
  have range := toNat_char c
  rcases writePoint_cases c with
    ⟨letter, short, written⟩ | ⟨visible, quote, backslash, written⟩ | ⟨small, written⟩ |
      ⟨astral, written⟩
  · rw [written]
    exact readText_short short t
  · rw [written]
    exact readText_plain (c := .char c) visible (by simpa using quote) (by simpa using backslash) t
  · have unit : ofUnit c.toNat = .char c := by
      rw [ofUnit, dif_neg (by omega), Char.ofNat_toNat]
    rw [written, readText_escape small, unit]
    intro a b c' d rest heads
    cases hexUnit? a b c' d with
    | none => rfl
    | some v => exact ofPair_of_not_high (by omega) v
  · rw [written, List.append_assoc]
    exact readText_pair (by omega) (by omega) (ofPair_units astral) t

/-- The unit of an escape is told by its digits. -/
theorem hexUnit_of_escape {u : Nat} (h : u < 0x10000) {t rest : Text} {a b c d : CodePoint}
    (heads : escape u ++ t = .char '\\' :: .char 'u' :: a :: b :: c :: d :: rest) :
    hexUnit? a b c d = some u := by
  obtain ⟨_, _, _, _, spelled, unit⟩ := exists_escape h
  rw [spelled] at heads
  simp only [List.cons_append, List.nil_append, List.cons.injEq, true_and] at heads
  obtain ⟨rfl, rfl, rfl, rfl, -⟩ := heads
  exact unit

/-- What stands between the quotes, the closing one, and what follows. -/
def closed (t rest : Text) : Text := Text.ofChars (t.flatMap writePoint) ++ .char '"' :: rest

theorem closed_cons (c : CodePoint) (t rest : Text) :
    closed (c :: t) rest = Text.ofChars (writePoint c) ++ closed t rest := by
  simp [closed]

theorem ofChars_writePoint_surrogate (n : Fin 0x800) :
    Text.ofChars (writePoint (.surrogate n)) = escape (0xd800 + n.val) := by
  have small : 0xd800 + n.val < 0x10000 := by omega
  simp [writePoint, writeUnits, units, CodePoint.toNat, small, escape, Text.ofChars]

theorem ofUnit_surrogate (n : Fin 0x800) : ofUnit (0xd800 + n.val) = .surrogate n := by
  rw [ofUnit, dif_pos (by omega)]
  simp

/-- A unit makes a pair with what is written next only if a surrogate is written next. -/
theorem alone_of_closed {u : Nat} {t rest : Text}
    (next : ∀ n t', t = .surrogate n :: t' → ofPair? u (0xd800 + n.val) = none) :
    ∀ a b c d behind, closed t rest = .char '\\' :: .char 'u' :: a :: b :: c :: d :: behind →
      (hexUnit? a b c d).bind (ofPair? u) = none := by
  intro a b c d behind heads
  cases t with
  | nil => simp [closed, Text.ofChars] at heads
  | cons point t =>
      rw [closed_cons] at heads
      cases point with
      | surrogate n =>
          rw [ofChars_writePoint_surrogate] at heads
          rw [hexUnit_of_escape (by omega) heads]
          exact next n t rfl
      | char c =>
          have range := toNat_char c
          rcases writePoint_cases c with
            ⟨letter, short, written⟩ | ⟨visible, quote, backslash, written⟩ | ⟨small, written⟩ |
              ⟨astral, written⟩
          · rw [written] at heads
            simp only [List.cons_append, List.nil_append, List.cons.injEq, CodePoint.char.injEq,
              true_and] at heads
            obtain ⟨rfl, -⟩ := heads
            exact absurd short (by simp [shortEscapes])
          · rw [written] at heads
            exact absurd (CodePoint.char.inj (List.cons.inj heads).1) backslash
          · rw [written] at heads
            rw [hexUnit_of_escape small heads]
            exact ofPair_of_not_low (by omega) u
          · rw [written, List.append_assoc] at heads
            rw [hexUnit_of_escape (by omega) heads]
            exact ofPair_of_not_low (by omega) u

/-- What is written between quotes is read as the text with its pairs joined. -/
theorem readText_closed (t rest : Text) : readText (closed t rest) = some (t.joined, rest) := by
  induction t using Text.joined.induct with
  | case1 a b t c pair ih =>
      rw [closed_cons, closed_cons, ofChars_writePoint_surrogate, ofChars_writePoint_surrogate,
        readText_pair (by omega) (by omega) pair, ih, Text.joined]
      simp [pair, prepend]
  | case2 a b t none ih =>
      rw [closed_cons, ofChars_writePoint_surrogate, readText_escape (by omega), ih, Text.joined]
      · simp [none, prepend, ofUnit_surrogate]
      · apply alone_of_closed
        rintro n t' ⟨⟩
        exact none
  | case3 c t last ih =>
      have alone : Text.joined (c :: t) = c :: Text.joined t := by
        rw [Text.joined]
        exact last
      rw [alone, closed_cons]
      cases c with
      | char c =>
          rw [readText_char, ih]
          rfl
      | surrogate n =>
          rw [ofChars_writePoint_surrogate, readText_escape (by omega), ih]
          · simp [prepend, ofUnit_surrogate]
          · apply alone_of_closed
            rintro n' t' rfl
            exact (last n n' t' rfl rfl).elim
  | case4 => simp [closed, Text.ofChars, readText, Text.joined]

theorem readString_closed (t rest : Text) : readString (closed t rest) = .ok (t.joined, rest) :=
  readString_eq_ok_iff.mpr (readText_closed t rest)

end Json

end BearerToken

import Mathlib
import BearerToken.Proofs.Numeral.Bounds
import BearerToken.Proofs.Uuid

/-!
# The spellings of an identifier

Braces around a text and the marks in front of it are dropped, whatever the text is, so they change
nothing in what is read. The case of letters and the place of hyphens change nothing either, because
the digits that are left denote the same. And no text is refused for the size of its number: 32 code
points without a minus sign denote no number of more than 128 bits.
-/

namespace BearerToken

theorem Text.trim_wrapped {p : CodePoint → Bool} {c d : CodePoint} (front : p c) (back : p d)
    (t : Text) : trim p (c :: (t ++ [d])) = trim p t := by
  rw [trim, List.dropWhile_cons_of_pos front, List.dropWhile_append]
  split
  · next gone =>
    rw [List.isEmpty_iff] at gone
    rw [trim, gone, List.dropWhile_cons_of_pos back]
    rfl
  · rw [List.reverse_append, List.reverse_singleton, List.singleton_append,
      List.dropWhile_cons_of_pos back, trim]

namespace Uuid

open Text (hexDigit)

variable {t mark : Text} {c : CodePoint} {u : Uuid}

/-! ### Marks and braces -/

theorem dropMark_append_self (nonempty : mark ≠ []) (t : Text) :
    dropMark mark (mark ++ t) = dropMark mark t := by
  obtain ⟨c, rest, rfl⟩ := List.exists_cons_of_ne_nil nonempty
  have starts : (c :: rest).isPrefixOf (c :: (rest ++ t)) = true := by
    rw [List.isPrefixOf_iff_prefix]
    exact List.prefix_append (c :: rest) t
  rw [List.cons_append, dropMark, if_pos starts, List.length_cons, Nat.add_sub_cancel,
    List.drop_left]

theorem dropMark_cons (nonempty : mark ≠ []) (foreign : c ∉ mark) (t : Text) :
    dropMark mark (c :: t) = c :: dropMark mark t := by
  have other : ¬mark.isPrefixOf (c :: t) = true := by
    rw [List.isPrefixOf_iff_prefix]
    intro starts
    obtain nil | ⟨rest, rfl, -⟩ := List.prefix_cons_iff.mp starts
    · exact nonempty nil
    · exact foreign List.mem_cons_self
  rw [dropMark, if_neg other]

/-- A code point behind a text that is in no mark completes no mark. -/
theorem dropMark_concat (nonempty : mark ≠ []) (foreign : c ∉ mark) (t : Text) :
    dropMark mark (t ++ [c]) = dropMark mark t ++ [c] := by
  have short (t : Text) : mark <+: t ++ [c] ↔ mark <+: t := by
    rw [List.prefix_concat_iff, or_iff_right]
    rintro rfl
    exact foreign (by simp)
  induction t using dropMark.induct mark with
  | case1 => rw [List.nil_append, dropMark_cons nonempty foreign, dropMark, List.nil_append]
  | case2 d t starts ih =>
      -- The mark ends within the text, so the code point stays behind what is dropped.
      have whole := List.isPrefixOf_iff_prefix.mp starts
      have fits : mark.length - 1 ≤ t.length := by
        have := whole.length_le
        rw [List.length_cons] at this
        omega
      have extended : mark.isPrefixOf (d :: (t ++ [c])) = true := by
        rw [List.isPrefixOf_iff_prefix]
        exact (short (d :: t)).mpr whole
      rw [List.cons_append, dropMark, if_pos extended, dropMark, if_pos starts,
        List.drop_append_of_le_length fits, ih]
  | case3 d t other ih =>
      have extended : ¬mark.isPrefixOf (d :: (t ++ [c])) = true := by
        rw [List.isPrefixOf_iff_prefix] at other ⊢
        exact fun starts => other ((short (d :: t)).mp starts)
      rw [List.cons_append, dropMark, if_neg extended, dropMark, if_neg other, ih, List.cons_append]

theorem dropMark_wrapped (nonempty : mark ≠ []) {d : CodePoint} (front : c ∉ mark) (back : d ∉ mark)
    (t : Text) : dropMark mark (c :: (t ++ [d])) = c :: (dropMark mark t ++ [d]) := by
  rw [dropMark_cons nonempty front, dropMark_concat nonempty back]

/-- Braces around a text change nothing in what is left of it. -/
theorem bare_braced (t : Text) : bare (.char '{' :: (t ++ [.char '}'])) = bare t := by
  rw [bare, dropMark_wrapped (by decide) (by decide) (by decide),
    dropMark_wrapped (by decide) (by decide) (by decide), Text.trim_wrapped (by decide) (by decide),
    bare]

/-- The marks in front of a text change nothing in what is left of it. -/
theorem bare_marked (t : Text) : bare (Text.ofString "urn:uuid:" ++ t) = bare t := by
  have inner : dropMark "urn:" (Text.ofString "uuid:" ++ t) =
      Text.ofString "uuid:" ++ dropMark "urn:" t := by
    simp [Text.ofString, Text.ofChars, dropMark]
  have marks : Text.ofString "urn:uuid:" = Text.ofString "urn:" ++ Text.ofString "uuid:" := by decide
  rw [bare, marks, List.append_assoc, dropMark_append_self (by decide), inner,
    dropMark_append_self (by decide), bare]

theorem parse_congr {t' : Text} (same : bare t = bare t') : parse t = parse t' := by
  simp only [parse, same]

/-! ### Letters and hyphens -/

/-- The texts that come of the canonical one by changes to the case of letters and to hyphens. -/
inductive Respelling (u : Uuid) : Text → Prop
  | canonical : Respelling u (.ofString u.canonical)
  | capital {front back : Text} {c : Char} (spelled : Respelling u (front ++ .char c :: back)) :
      Respelling u (front ++ .char c.toUpper :: back)
  | joined {front back : Text} (spelled : Respelling u (front ++ .char '-' :: back)) :
      Respelling u (front ++ back)
  | parted {front back : Text} (spelled : Respelling u (front ++ back)) :
      Respelling u (front ++ .char '-' :: back)

/-- A hyphen or a digit, in either case. -/
def IsLetter (c : Char) : Prop :=
  c = '-' ∨ ∃ d < 16, c = hexDigit d ∨ c = (hexDigit d).toUpper

theorem toUpper_hexDigit_facts : ∀ d < 16,
    (hexDigit d).toUpper.toUpper = (hexDigit d).toUpper ∧
      Text.digit? 16 (hexDigit d).toUpper = some d ∧
      (hexDigit d).toUpper ∉ ['{', '}', ':', '-'] := by
  decide

theorem IsLetter.ne_mark {c : Char} (letter : IsLetter c) : c ∉ ['{', '}', ':'] := by
  have lower : ['{', '}', ':'] ⊆ ['-', '+', '_', 'x', 'X', '{', '}', ':', '"', '['] := by decide
  have upper : ['{', '}', ':'] ⊆ ['{', '}', ':', '-'] := by decide
  obtain rfl | ⟨d, below, rfl | rfl⟩ := letter
  · decide
  · exact fun mark => (Numeral.hexDigit_facts d below).2.2 (lower mark)
  · exact fun mark => (toUpper_hexDigit_facts d below).2.2 (upper mark)

/-- The capital of a letter stands for the same digit, or is a hyphen as well. -/
theorem IsLetter.toUpper_facts {c : Char} (letter : IsLetter c) :
    IsLetter c.toUpper ∧ Text.digit? 16 c.toUpper = Text.digit? 16 c ∧
      (c.toUpper = '-' ↔ c = '-') := by
  obtain rfl | ⟨d, below, rfl | rfl⟩ := letter
  · exact ⟨.inl (by decide), by decide, by decide⟩
  · obtain ⟨lower, -, plain⟩ := Numeral.hexDigit_facts d below
    obtain ⟨-, upper, other⟩ := toUpper_hexDigit_facts d below
    exact ⟨.inr ⟨d, below, .inr rfl⟩, by rw [upper, lower], by grind⟩
  · obtain ⟨twice, -⟩ := toUpper_hexDigit_facts d below
    rw [twice]
    exact ⟨.inr ⟨d, below, .inr rfl⟩, rfl, Iff.rfl⟩

/-- What the code points stand for, the hyphens apart. -/
def places (t : Text) : List (Option Nat) := (t.filter (· ≠ .char '-')).map (Text.digit? 16)

theorem places_append (s t : Text) : places (s ++ t) = places s ++ places t := by
  simp [places]

theorem places_toUpper {c : Char} (letter : IsLetter c) :
    places [.char c.toUpper] = places [.char c] := by
  obtain ⟨-, digit, hyphen⟩ := letter.toUpper_facts
  by_cases mark : c = '-'
  · rw [hyphen.mpr mark, mark]
  · simp [places, mark, hyphen, digit]

def AreLetters (t : Text) : Prop := ∀ c ∈ t, ∃ letter, IsLetter letter ∧ c = .char letter

theorem areLetters_append {s t : Text} : AreLetters (s ++ t) ↔ AreLetters s ∧ AreLetters t :=
  List.forall_mem_append

theorem areLetters_singleton {c : Char} : AreLetters [.char c] ↔ IsLetter c := by
  simp [AreLetters]

/-- What such a text has in common with the canonical one. -/
structure Spells (u : Uuid) (t : Text) : Prop where
  letters : AreLetters t
  digits : places t = places (.ofString u.canonical)

theorem spells_canonical (u : Uuid) : Spells u (.ofString u.canonical) where
  letters := by
    intro c inside
    rw [ofString_canonical] at inside
    obtain ⟨letter, member, rfl⟩ := List.mem_map.mp inside
    obtain hyphen | ⟨d, below, digit⟩ := mem_canonicalChars member
    · exact ⟨letter, .inl hyphen, rfl⟩
    · exact ⟨letter, .inr ⟨d, below, .inl digit⟩, rfl⟩
  digits := rfl

/-- Letters in a text are exchanged for others in the same places. -/
theorem Spells.exchange (old new : Text) {front back : Text}
    (letters : AreLetters old → AreLetters new) (same : AreLetters old → places new = places old)
    (spells : Spells u (front ++ (old ++ back))) : Spells u (front ++ (new ++ back)) := by
  obtain ⟨inFront, inside, behind⟩ : AreLetters front ∧ AreLetters old ∧ AreLetters back := by
    rw [← areLetters_append, ← areLetters_append]
    exact spells.letters
  constructor
  · rw [areLetters_append, areLetters_append]
    exact ⟨inFront, letters inside, behind⟩
  · rw [← spells.digits]
    simp only [places_append, same inside]

theorem Respelling.spells (spelled : Respelling u t) : Spells u t := by
  induction spelled with
  | canonical => exact spells_canonical u
  | @capital front back c spelled ih =>
      refine .exchange [.char c] [.char c.toUpper] (fun letter => ?_) (fun letter => ?_) ih
      · exact areLetters_singleton.mpr (areLetters_singleton.mp letter).toUpper_facts.1
      · exact places_toUpper (areLetters_singleton.mp letter)
  | joined spelled ih => exact .exchange [.char '-'] [] (fun _ => nofun) (fun _ => rfl) ih
  | parted spelled ih =>
      have hyphen : AreLetters [.char '-'] := areLetters_singleton.mpr (.inl rfl)
      exact .exchange [] [.char '-'] (fun _ => hyphen) (fun _ => rfl) ih

theorem Spells.parse_eq (spells : Spells u t) : parse t = .ok u := by
  have unmarked : ∀ mark ∈ ['{', '}', ':'], .char mark ∉ t := by
    intro mark listed inside
    obtain ⟨_, letter, ⟨⟩⟩ := spells.letters _ inside
    exact letter.ne_mark listed
  apply parse_of_bare
  rw [bare_eq_filter unmarked, ← filter_canonical]
  exact spells.digits

/-- The spellings of an identifier: a change to letters and hyphens, and around it braces and
marks. -/
inductive Spelling (u : Uuid) : Text → Prop
  | respelled {t : Text} (spelled : Respelling u t) : Spelling u t
  | braced {t : Text} (spelled : Spelling u t) : Spelling u (.char '{' :: (t ++ [.char '}']))
  | marked {t : Text} (spelled : Spelling u t) : Spelling u (Text.ofString "urn:uuid:" ++ t)

/-- Every spelling of an identifier is read as the identifier. -/
theorem Spelling.parse_eq (spelling : Spelling u t) : parse t = .ok u := by
  induction spelling with
  | respelled spelled => exact spelled.spells.parse_eq
  | braced _ ih => rw [parse_congr (bare_braced _), ih]
  | marked _ ih => rw [parse_congr (bare_marked _), ih]

/-! ### The number that is read -/

theorem hyphen_not_mem_bare (t : Text) : .char '-' ∉ bare t := by
  intro inside
  have other := List.of_mem_filter inside
  simp at other

/-- What is read where 32 code points are left is a number of 128 bits. -/
theorem exists_lt_of_read {n : Int} (length : (bare t).length = 32)
    (reads : Numeral.read 16 (bare t) = .ok n) : ∃ m : Nat, m < 2 ^ 128 ∧ n = m := by
  obtain ⟨m, below, same⟩ :=
    Numeral.exists_lt_of_read (by decide) (hyphen_not_mem_bare t) reads
  refine ⟨m, ?_, same⟩
  calc m < 16 ^ (bare t).length := below
    _ = 2 ^ 128 := by rw [length]; decide

/-- No text is refused for the size of its number. -/
theorem parse_ne_outOfRange (t : Text) : parse t ≠ .error .outOfRange := by
  intro refused
  simp only [parse] at refused
  split at refused
  · cases refused
  · next length =>
    split at refused
    · cases refused
    · next n reads =>
      obtain ⟨m, below, rfl⟩ := exists_lt_of_read (not_not.mp length) reads
      split at refused
      · cases refused
      · next outside =>
        exact outside ⟨Int.natCast_nonneg m, by exact_mod_cast below⟩

end Uuid

end BearerToken

import Mathlib
import BearerToken.Proofs.Numeral
import BearerToken.TokenId

/-!
# The canonical text of an identifier

The canonical text of an identifier is read as that identifier. It holds no mark that reading drops,
save the four hyphens, and the digits between them are those of the whole number.
-/

namespace BearerToken

theorem Text.hex_add (front back n : Nat) :
    hex (front + back) n = hex front (n / 16 ^ back) ++ hex back n := by
  induction back generalizing n with
  | zero => simp [hex]
  | succ back ih =>
      rw [← Nat.add_assoc, hex, ih, hex, Nat.div_div_eq_div_mul, Nat.pow_succ', List.append_assoc]

namespace Uuid

open Text (hexDigit)

theorem mem_hex {count n : Nat} {c : Char} (member : c ∈ Text.hex count n) :
    ∃ d < 16, c = hexDigit d := by
  obtain ⟨ds, written, -, below, -⟩ := Numeral.exists_hex count n
  obtain ⟨d, inside, rfl⟩ := List.mem_map.mp (written ▸ member)
  exact ⟨d, below d inside, rfl⟩

theorem mem_canonicalChars {u : Uuid} {c : Char} (member : c ∈ u.canonicalChars) :
    c = '-' ∨ ∃ d < 16, c = hexDigit d := by
  simp only [canonicalChars, List.mem_append, List.mem_cons, or_assoc] at member
  obtain h | h | h | h | h | h | h | h | h := member
  · exact .inr (mem_hex h)
  · exact .inl h
  · exact .inr (mem_hex h)
  · exact .inl h
  · exact .inr (mem_hex h)
  · exact .inl h
  · exact .inr (mem_hex h)
  · exact .inl h
  · exact .inr (mem_hex h)

/-- The canonical text holds none of the marks that are dropped as a whole. -/
theorem ne_of_mem_canonical {u : Uuid} {c : CodePoint} (member : c ∈ Text.ofChars u.canonicalChars)
    (mark : Char) (listed : mark ∈ ['{', '}', ':']) : c ≠ mark := by
  obtain ⟨c, inside, rfl⟩ := List.mem_map.mp member
  rintro ⟨⟩
  obtain rfl | ⟨d, below, rfl⟩ := mem_canonicalChars inside
  · exact absurd listed (by decide)
  · have marks : ['{', '}', ':'] ⊆ ['-', '+', '_', 'x', 'X', '{', '}', ':', '"', '['] := by decide
    exact (Numeral.hexDigit_facts d below).2.2 (marks listed)

/-- Dropping the hyphens leaves digits as they are. -/
theorem filter_hex (count n : Nat) :
    (Text.ofChars (Text.hex count n)).filter (· ≠ .char '-') = Text.ofChars (Text.hex count n) := by
  rw [List.filter_eq_self]
  intro c member
  obtain ⟨c, inside, rfl⟩ := List.mem_map.mp member
  obtain ⟨d, below, rfl⟩ := mem_hex inside
  have other : hexDigit d ≠ '-' := by
    intro same
    exact (Numeral.hexDigit_facts d below).2.2 (by simp [same])
  simpa using other

theorem dropMark_eq_self {mark t : Text} (colon : .char ':' ∈ mark) (absent : .char ':' ∉ t) :
    dropMark mark t = t := by
  induction t with
  | nil => rw [dropMark]
  | cons c t ih =>
      have unmarked : ¬mark <+: c :: t := fun starts => absent (starts.subset colon)
      have rest : .char ':' ∉ t := fun inside => absent (List.mem_cons_of_mem c inside)
      rw [dropMark, if_neg (by rwa [List.isPrefixOf_iff_prefix]), ih rest]

/-- The digits of the whole number, in the groups that the hyphens part. -/
theorem hex_eq_groups (u : Uuid) :
    Text.hex 32 u.val =
      Text.hex 8 (u.val / 2 ^ 96) ++ Text.hex 4 (u.val / 2 ^ 80) ++ Text.hex 4 (u.val / 2 ^ 64) ++
        Text.hex 4 (u.val / 2 ^ 48) ++ Text.hex 12 u.val := by
  rw [Text.hex_add 20 12, Text.hex_add 16 4, Text.hex_add 12 4, Text.hex_add 8 4]
  simp only [Nat.div_div_eq_div_mul]
  norm_num

theorem ofString_canonical (u : Uuid) :
    Text.ofString u.canonical = Text.ofChars u.canonicalChars :=
  Text.ofString_ofList u.canonicalChars

/-- Without its hyphens the canonical text is the number in hexadecimal. -/
theorem filter_canonical (u : Uuid) :
    (Text.ofString u.canonical).filter (· ≠ .char '-') = Text.ofChars (Text.hex 32 u.val) := by
  have hyphen (t : Text) :
      (.char '-' :: t).filter (· ≠ .char '-') = t.filter (· ≠ .char '-') := by simp
  rw [ofString_canonical, canonicalChars, hex_eq_groups]
  simp only [List.append_assoc, List.cons_append, Text.ofChars_append, Text.ofChars_cons,
    List.filter_append, filter_hex, hyphen]

/-- Where there are no marks and no braces, only the hyphens are dropped. -/
theorem bare_eq_filter {t : Text} (plain : ∀ mark ∈ ['{', '}', ':'], .char mark ∉ t) :
    bare t = t.filter (· ≠ .char '-') := by
  have unmarked : .char ':' ∉ t := plain ':' (by decide)
  have unbraced : ∀ c ∈ t, (decide (c = .char '{') || decide (c = .char '}')) = false := by
    rintro c inside
    rw [Bool.or_eq_false_iff, decide_eq_false_iff_not, decide_eq_false_iff_not]
    constructor
    · rintro rfl
      exact plain '{' (by decide) inside
    · rintro rfl
      exact plain '}' (by decide) inside
  rw [bare, dropMark_eq_self (by decide) unmarked, dropMark_eq_self (by decide) unmarked,
    Numeral.trim_eq_self (fun c first => unbraced c (List.mem_of_mem_head? first))
      fun c last => unbraced c (List.mem_of_mem_getLast? last)]

/-- A text denotes a number if 32 code points are left of it and these are a numeral of it. -/
def Denotes (t : Text) (n : Nat) : Prop :=
  (bare t).length = 32 ∧ Numeral.read 16 (bare t) = .ok (n : Int)

theorem Denotes.unique {t : Text} {m n : Nat} (h : Denotes t m) (h' : Denotes t n) : m = n := by
  have same := h.2.symm.trans h'.2
  exact Int.ofNat_inj.mp (Except.ok.inj same)

/-- What is read is the number that the text denotes. -/
theorem parse_eq_ok_iff {t : Text} {u : Uuid} : parse t = .ok u ↔ Denotes t u.val := by
  constructor
  · intro reads
    simp only [parse] at reads
    split at reads
    · cases reads
    · next length =>
      split at reads
      · cases reads
      · next n numeral =>
        split at reads
        · next range =>
          cases reads
          exact ⟨not_not.mp length, by rw [numeral, Int.toNat_of_nonneg range.1]⟩
        · cases reads
  · rintro ⟨length, numeral⟩
    have range : (0 : Int) ≤ u.val ∧ (u.val : Int) < 2 ^ 128 :=
      ⟨Int.natCast_nonneg _, by exact_mod_cast u.isLt⟩
    simp only [parse, length, numeral, dif_pos range]
    rfl

/-- What is left of a text may be any text whose digits are those of the number. -/
theorem parse_of_bare {t : Text} {u : Uuid}
    (digits : (bare t).map (Text.digit? 16) =
      (Text.ofChars (Text.hex 32 u.val)).map (Text.digit? 16)) : parse t = .ok u := by
  obtain ⟨ds, written, length, below, denotes⟩ := Numeral.exists_hex 32 u.val
  have meant : (bare t).map (Text.digit? 16) = ds.map some := by
    rw [digits, written]
    exact Numeral.map_digit?_symbols fun d member => (Numeral.hexDigit_facts d (below d member)).1
  have count : (bare t).length = 32 := by
    rw [← length, ← List.length_map (Text.digit? 16), meant, List.length_map]
  have nonempty : bare t ≠ [] := List.ne_nil_of_length_pos (by omega)
  have whole : Numeral.value 16 ds = u.val := by
    rw [denotes]
    exact Nat.mod_eq_of_lt u.isLt
  rw [parse_eq_ok_iff, ← whole]
  exact ⟨count, (Numeral.readable_hex nonempty meant).read_eq⟩

/-- The canonical text of an identifier is read as the identifier. -/
theorem parse_canonical (u : Uuid) : parse (Text.ofString u.canonical) = .ok u := by
  apply parse_of_bare
  rw [bare_eq_filter, filter_canonical]
  intro mark listed inside
  exact ne_of_mem_canonical (ofString_canonical u ▸ inside) mark listed rfl

theorem canonicalChars_injective {u v : Uuid} (same : u.canonicalChars = v.canonicalChars) :
    u = v := by
  have read := parse_canonical u
  rw [canonical, same, ← canonical, parse_canonical] at read
  exact (Except.ok.inj read).symm

end Uuid

theorem TokenId.parse_canonical (id : TokenId) :
    TokenId.parse (Text.ofString id.canonical) = .ok id := by
  rw [TokenId.parse, TokenId.canonical, Uuid.parse_canonical]
  simp [ofUuid, id.timed]

@[simp] theorem TokenId.length_canonical (i : TokenId) : i.canonical.toList.length = 36 := by
  simp [TokenId.canonical, Uuid.canonical]

theorem TokenId.canonical_injective {i j : TokenId}
    (same : i.canonical.toList = j.canonical.toList) : i = j := by
  apply TokenId.ext
  apply Uuid.canonicalChars_injective
  simpa [TokenId.canonical, Uuid.canonical] using same

end BearerToken

import Mathlib
import BearerToken.Proofs.Store.Namespaces
import BearerToken.Proofs.TokenId.Bytes
import BearerToken.Proofs.Uuid.Spelling

/-!
# The address of an identifier

An identifier is written in one way and read in many. Whatever spelling it came in, it is kept under
the number that the spelling denotes: the entry in memory is found by the number itself, and the key
on the server by the canonical text, which is one for each number.
-/

namespace BearerToken

namespace TokenId

theorem ofUuid_eq_ok_iff {u : Uuid} {i : TokenId} : ofUuid u = .ok i ↔ u = i.uuid := by
  unfold ofUuid
  constructor
  · intro h
    split at h
    · cases h
      rfl
    · cases h
  · rintro rfl
    rw [dif_pos i.timed]

/-- A text is read as the identifier whose number it denotes. -/
theorem parse_eq_ok_iff {t : Text} {i : TokenId} :
    parse t = .ok i ↔ Uuid.Denotes t i.uuid.val := by
  rw [← Uuid.parse_eq_ok_iff, parse]
  cases read : Uuid.parse t with
  | error cause => simp
  | ok u => simp only [ofUuid_eq_ok_iff, Except.ok.injEq]

theorem parse_ne_outOfRange (t : Text) : parse t ≠ .error (.notUuid .outOfRange) := by
  intro refused
  rw [parse] at refused
  split at refused
  · next cause read =>
    cases refused
    exact Uuid.parse_ne_outOfRange t read
  · next u read =>
    unfold ofUuid at refused
    split at refused
    · cases refused
    · cases refused

/-- Two texts that are read give the same identifier if they denote the same number. -/
theorem eq_iff_of_parse {t t' : Text} {i j : TokenId} (read : parse t = .ok i)
    (read' : parse t' = .ok j) : i = j ↔ ∃ n, Uuid.Denotes t n ∧ Uuid.Denotes t' n := by
  rw [parse_eq_ok_iff] at read read'
  constructor
  · rintro rfl
    exact ⟨_, read, read'⟩
  · rintro ⟨n, first, second⟩
    exact ext (Uuid.ext ((read.unique first).trans (second.unique read')))

theorem lower_of_mem_canonical {i : TokenId} {c : Char} (member : c ∈ i.canonical.toList) :
    c ∈ "0123456789abcdef-".toList := by
  have digit : ∀ d < 16, Text.hexDigit d ∈ "0123456789abcdef-".toList := by decide
  rw [canonical, Uuid.canonical, String.toList_ofList] at member
  obtain rfl | ⟨d, below, rfl⟩ := Uuid.mem_canonicalChars member
  · decide
  · exact digit d below

end TokenId

/-- What tells two identifiers apart is a store in memory that holds one of them. -/
theorem Memory.get?_eq_iff {i j : TokenId} :
    (∀ m : Memory, m.entries.get? i = m.entries.get? j) ↔ i = j := by
  constructor
  · intro same
    by_contra apart
    have held := same { empty with entries := Table.empty.set i ⟨.empty, 0⟩ }
    rw [Table.get?_set_self, Table.get?_set_of_ne _ apart] at held
    cases held
  · rintro rfl
    exact fun _ => rfl

/-- Every spelling of an identifier leads to it, and so do its canonical text and its bytes. Whatever
text is read, its number fits in 128 bits, and the canonical text has one form that is read as the
same identifier. So two texts lead to one entry in memory, and to one key on the server, if and only
if they denote one number. -/
theorem TokenId.address_of_spelling :
    (∀ i : TokenId, parse (.ofString i.canonical) = .ok i ∧ ofBytes i.bytes = .ok i ∧
      ∀ t, i.uuid.Spelling t → parse t = .ok i) ∧
    (∀ t, parse t ≠ .error (.notUuid .outOfRange)) ∧
    (∀ t i, parse t = .ok i →
      Uuid.Denotes t i.uuid.val ∧ i.uuid.val < 2 ^ 128 ∧
      i.canonical.toList.length = 36 ∧
      (∀ c ∈ i.canonical.toList, c ∈ "0123456789abcdef-".toList) ∧
      parse (.ofString i.canonical) = .ok i) ∧
    ∀ t t' i j, parse t = .ok i → parse t' = .ok j →
      ((∀ m : Memory, m.entries.get? i = m.entries.get? j) ↔
        ∃ n, Uuid.Denotes t n ∧ Uuid.Denotes t' n) ∧
      ∀ ns ns', Remote.key ns i = Remote.key ns' j ↔
        ns = ns' ∧ ∃ n, Uuid.Denotes t n ∧ Uuid.Denotes t' n := by
  refine ⟨fun i => ⟨parse_canonical i, ofBytes_eq_ok_iff.mpr rfl, fun t spelling => ?_⟩,
    parse_ne_outOfRange, fun t i read => ?_, fun t t' i j read read' => ⟨?_, fun ns ns' => ?_⟩⟩
  · rw [parse_eq_ok_iff, ← Uuid.parse_eq_ok_iff]
    exact spelling.parse_eq
  · exact ⟨parse_eq_ok_iff.mp read, i.uuid.isLt, length_canonical i,
      fun c member => lower_of_mem_canonical member, parse_canonical i⟩
  · rw [Memory.get?_eq_iff, eq_iff_of_parse read read']
  · rw [Remote.key_eq_iff, Prod.mk.injEq, eq_iff_of_parse read read']

/-- A numeral with a sign, a base mark, an underscore and digits of another script, and the canonical
text with capitals, without some hyphens, in braces and behind the marks. -/
theorem TokenId.address_of_spelling_script :
    ∃ i j, parse "+0x_\u0661\u066234567871238123456\uff1789abcdef" = .ok i ∧
      parse "urn:uuid:{00001234-56787123-8123-456789abcdeF}" = .ok j ∧
      Remote.key "tokens" i = Remote.key "tokens" j := by
  let i : TokenId := ⟨⟨0x00001234567871238123456789abcdef, by decide⟩, by decide⟩
  have script : parse "+0x_\u0661\u066234567871238123456\uff1789abcdef" = .ok i := by
    decide +kernel
  have spelling : i.uuid.Spelling "urn:uuid:{00001234-56787123-8123-456789abcdeF}" := by
    have written : i.uuid.canonical = "00001234-5678-7123-8123-456789abcdef" := by decide +kernel
    have plain : i.uuid.Respelling "00001234-5678-7123-8123-456789abcdef" := written ▸ .canonical
    have shorter : i.uuid.Respelling "00001234-56787123-8123-456789abcdef" :=
      @Uuid.Respelling.joined _ "00001234-5678" "7123-8123-456789abcdef" plain
    have mixed : i.uuid.Respelling "00001234-56787123-8123-456789abcdeF" :=
      @Uuid.Respelling.capital _ "00001234-56787123-8123-456789abcde" [] 'f' shorter
    exact .marked (.braced (.respelled mixed))
  have spelled := (address_of_spelling.1 i).2.2 _ spelling
  refine ⟨i, i, script, spelled, ?_⟩
  exact ((address_of_spelling.2.2.2 _ _ _ _ script spelled).2 _ _).mpr
    ⟨rfl, _, (address_of_spelling.2.2.1 _ _ script).1, (address_of_spelling.2.2.1 _ _ spelled).1⟩

end BearerToken

import Mathlib
import BearerToken.Proofs.Bytes
import BearerToken.Proofs.TokenId.Time
import BearerToken.Proofs.Uuid

/-!
# The order of identifiers

Identifiers are ordered as numbers. Bytes and canonical text write the number with a fixed count of
digits, the first one first, and the hyphens stand at the same places in every text; so both are in
the order of the numbers. A new identifier has its time in front of all else that it holds, so it is
greater than all that were made before, whatever was drawn for them.
-/

namespace BearerToken

namespace Numeral

theorem value_cons (base d : Nat) (ds : List Nat) :
    value base (d :: ds) = d * base ^ ds.length + value base ds := by
  simpa [value] using value_append base [d] ds

/-- Of two texts with one count of digits the one that denotes less comes first, if the symbols are
in the order of the digits. -/
theorem map_lt_map {α : Type} [LT α] {base : Nat} {symbol : Nat → α}
    (ascending : ∀ e < base, ∀ d < e, symbol d < symbol e) {ds es : List Nat}
    (count : ds.length = es.length) (below : ∀ d ∈ ds, d < base) (below' : ∀ e ∈ es, e < base)
    (less : value base ds < value base es) : ds.map symbol < es.map symbol := by
  induction ds generalizing es with
  | nil =>
      rw [List.length_eq_zero_iff.mp count.symm] at less
      exact absurd less (lt_irrefl _)
  | cons d ds ih =>
      obtain _ | ⟨e, es⟩ := es
      · cases count
      rw [List.length_cons, List.length_cons, Nat.succ_inj] at count
      rw [List.forall_mem_cons] at below below'
      have rest := value_lt below.2
      have rest' := value_lt below'.2
      rw [value_cons, value_cons, count] at less
      rw [count] at rest
      obtain first | rfl | first := Nat.lt_trichotomy d e
      · exact .rel (ascending e below'.1 d first)
      · exact .cons (ih count below.2 below'.2 (Nat.lt_of_add_lt_add_left less))
      · -- A greater first digit outweighs all that can follow.
        have room := Nat.mul_le_mul_right (base ^ es.length) (Nat.succ_le_of_lt first)
        rw [Nat.succ_mul] at room
        omega

end Numeral

theorem Bytes.ofNat_lt_ofNat {count m n : Nat} (less : m < n) (fits : n < 256 ^ count) :
    ofNat count m < ofNat count n := by
  have digits (k : Nat) : ((ofNat count k).map UInt8.toNat).map UInt8.ofNat = ofNat count k := by
    have each : UInt8.ofNat ∘ UInt8.toNat = id := funext fun _ => UInt8.ofNat_toNat
    rw [List.map_map, each, List.map_id]
  have denotes {k : Nat} (room : k < 256 ^ count) :
      Numeral.value 256 ((ofNat count k).map UInt8.toNat) = k := by
    rw [Numeral.value, List.foldl_map]
    exact (toNat_ofNat count k).trans (Nat.mod_eq_of_lt room)
  have below (k : Nat) : ∀ d ∈ (ofNat count k).map UInt8.toNat, d < 256 := by
    intro d member
    obtain ⟨b, -, rfl⟩ := List.mem_map.mp member
    exact b.toNat_lt
  rw [← digits m, ← digits n]
  refine Numeral.map_lt_map ?_ (by simp) (below m) (below n) ?_
  · intro e small d lower
    rw [UInt8.lt_iff_toNat_lt, UInt8.toNat_ofNat_of_lt' (lower.trans small),
      UInt8.toNat_ofNat_of_lt' small]
    exact lower
  · rwa [denotes (less.trans fits), denotes fits]

namespace Text

theorem hex_lt_hex {count m n : Nat} (less : m < n) (fits : n < 16 ^ count) :
    hex count m < hex count n := by
  obtain ⟨ds, written, length, below, denotes⟩ := Numeral.exists_hex count m
  obtain ⟨es, written', length', below', denotes'⟩ := Numeral.exists_hex count n
  have ascending : ∀ e < 16, ∀ d < e, hexDigit d < hexDigit e := by decide
  rw [written, written']
  refine Numeral.map_lt_map ascending (length.trans length'.symm) below below' ?_
  rwa [denotes, denotes', Nat.mod_eq_of_lt (less.trans fits), Nat.mod_eq_of_lt fits]

theorem append_lt_append_iff {front front' back back' : List Char}
    (width : front.length = front'.length) :
    front ++ back < front' ++ back' ↔ front < front' ∨ front = front' ∧ back < back' := by
  induction front generalizing front' with
  | nil =>
      obtain rfl := List.length_eq_zero_iff.mp width.symm
      simp
  | cons c front ih =>
      obtain _ | ⟨c', front'⟩ := front'
      · cases width
      rw [List.length_cons, List.length_cons, Nat.succ_inj] at width
      simp only [List.cons_append, List.cons_lt_cons_iff, ih width, List.cons.injEq]
      tauto

end Text

namespace Uuid

variable {u v : Uuid}

/-- The hyphens do not change the order of the digits. -/
theorem canonicalChars_lt_iff :
    u.canonicalChars < v.canonicalChars ↔ Text.hex 32 u.val < Text.hex 32 v.val := by
  rw [hex_eq_groups u, hex_eq_groups v]
  simp (disch := simp) only [canonicalChars, List.append_assoc, List.cons_append,
    Text.append_lt_append_iff, List.cons_lt_cons_self]

theorem bytes_lt_bytes (less : u.val < v.val) : u.bytes < v.bytes :=
  Bytes.ofNat_lt_ofNat less v.isLt

theorem canonical_lt_canonical (less : u.val < v.val) : u.canonical < v.canonical := by
  rw [String.lt_iff, canonical, canonical, String.toList_ofList, String.toList_ofList,
    canonicalChars_lt_iff]
  exact Text.hex_lt_hex less v.isLt

end Uuid

namespace TokenId

/-- The fields of a new identifier, each of them shifted to its place. -/
def layout (nowMs : Int) (high : Fin (2 ^ 12)) (low : Fin (2 ^ 62)) : Nat :=
  (nowMs % 2 ^ 48).toNat <<< 80 ||| 7 <<< 76 ||| high.val <<< 64 ||| 2 <<< 62 ||| low.val

section Fields

variable (nowMs nowMs' : Int) (high high' : Fin (2 ^ 12)) (low low' : Fin (2 ^ 62))

/-- No field reaches into the place of another. -/
theorem layout_eq_rawOf : layout nowMs high low = rawOf nowMs ⟨high, low⟩ := by
  have high_fits := high.isLt
  have low_fits := low.isLt
  have back : 2 <<< 62 ||| low.val = 2 * 2 ^ 62 + low := by
    rw [← Nat.shiftLeft_add_eq_or_of_lt low_fits, Nat.shiftLeft_eq]
  have behind : high.val <<< 64 ||| (2 * 2 ^ 62 + low) = high * 2 ^ 64 + (2 * 2 ^ 62 + low) := by
    rw [← Nat.shiftLeft_add_eq_or_of_lt (by omega), Nat.shiftLeft_eq]
  have version : 7 <<< 76 ||| (high * 2 ^ 64 + (2 * 2 ^ 62 + low)) =
      7 * 2 ^ 76 + (high * 2 ^ 64 + (2 * 2 ^ 62 + low)) := by
    rw [← Nat.shiftLeft_add_eq_or_of_lt (by omega), Nat.shiftLeft_eq]
  rw [layout, Nat.or_assoc, Nat.or_assoc, Nat.or_assoc, back, behind, version,
    ← Nat.shiftLeft_add_eq_or_of_lt (by omega), Nat.shiftLeft_eq]
  simp only [rawOf]
  omega

theorem rawOf_eq_iff : rawOf nowMs ⟨high, low⟩ = rawOf nowMs' ⟨high', low'⟩ ↔
    nowMs % 2 ^ 48 = nowMs' % 2 ^ 48 ∧ high = high' ∧ low = low' := by
  have high_fit := And.intro high.isLt high'.isLt
  have low_fit := And.intro low.isLt low'.isLt
  rw [Fin.ext_iff, Fin.ext_iff]
  simp only [rawOf]
  omega

end Fields

/-- The time outweighs what is drawn. -/
theorem rawOf_lt_rawOf {nowMs nowMs' : Int} (e e' : Entropy)
    (earlier : nowMs % 2 ^ 48 < nowMs' % 2 ^ 48) : rawOf nowMs e < rawOf nowMs' e' := by
  unfold rawOf
  omega

/-- The one comes before the other in each of its forms. -/
structure Precedes (i j : TokenId) : Prop where
  number : i.uuid.val < j.uuid.val
  bytes : i.bytes < j.bytes
  text : i.canonical < j.canonical

theorem precedes_of_val_lt {i j : TokenId} (less : i.uuid.val < j.uuid.val) : Precedes i j :=
  ⟨less, Uuid.bytes_lt_bytes less, Uuid.canonical_lt_canonical less⟩

/-- A new identifier is well formed and carries its time, it is told from another one by time and
draws, and later ones are greater, as numbers, as bytes and as texts. -/
theorem generate_sorted_by_time (nowMs : Int) (high : Fin (2 ^ 12)) (low : Fin (2 ^ 62)) :
    (∃ fits : layout nowMs high low < 2 ^ 128,
        ofUuid ⟨layout nowMs high low, fits⟩ = .ok (generate nowMs ⟨high, low⟩)) ∧
      (generate nowMs ⟨high, low⟩).uuid.isStandard ∧
      (generate nowMs ⟨high, low⟩).uuid.version? = some 7 ∧
      (generate nowMs ⟨high, low⟩).timestampMs = nowMs % 2 ^ 48 ∧
      ∀ (nowMs' : Int) (high' : Fin (2 ^ 12)) (low' : Fin (2 ^ 62)),
        (generate nowMs ⟨high, low⟩ = generate nowMs' ⟨high', low'⟩ ↔
            nowMs % 2 ^ 48 = nowMs' % 2 ^ 48 ∧ high = high' ∧ low = low') ∧
          (0 ≤ nowMs → nowMs < nowMs' → nowMs' < 2 ^ 48 →
            Precedes (generate nowMs ⟨high, low⟩) (generate nowMs' ⟨high', low'⟩)) := by
  have version : (generate nowMs ⟨high, low⟩).uuid.version? = some 7 := version?_generate nowMs _
  refine ⟨?_, ?_, version, timestampMs_generate_mod nowMs _, fun nowMs' high' low' => ⟨?_, ?_⟩⟩
  · have fits := layout_eq_rawOf nowMs high low ▸ rawOf_lt nowMs ⟨high, low⟩
    refine ⟨fits, ?_⟩
    have same : (⟨layout nowMs high low, fits⟩ : Uuid) = (generate nowMs ⟨high, low⟩).uuid :=
      Uuid.ext (layout_eq_rawOf nowMs high low)
    rw [same, ofUuid, dif_pos (generate nowMs ⟨high, low⟩).timed]
  · rw [Uuid.version?] at version
    by_contra other
    rw [if_neg other] at version
    cases version
  · rw [← rawOf_eq_iff]
    exact ⟨fun same => congrArg (fun i => i.uuid.val) same, fun same => ext (Uuid.ext same)⟩
  · intro nonneg earlier bounded
    apply precedes_of_val_lt
    apply rawOf_lt_rawOf
    rwa [Int.emod_eq_of_lt nonneg (earlier.trans bounded),
      Int.emod_eq_of_lt (nonneg.trans earlier.le) bounded]

/-- The last two instants that have a place, the earlier one with the greatest draws. -/
theorem generate_sorted_by_time_last :
    (0 : Int) ≤ 2 ^ 48 - 2 ∧ (2 ^ 48 - 2 : Int) < 2 ^ 48 - 1 ∧ (2 ^ 48 - 1 : Int) < 2 ^ 48 ∧
      generate (2 ^ 48 - 2) ⟨2 ^ 12 - 1, 2 ^ 62 - 1⟩ ≠ generate (2 ^ 48 - 1) ⟨0, 0⟩ ∧
      Precedes (generate (2 ^ 48 - 2) ⟨2 ^ 12 - 1, 2 ^ 62 - 1⟩) (generate (2 ^ 48 - 1) ⟨0, 0⟩) ∧
      generate (2 ^ 48 - 1) ⟨0, 0⟩ = generate (-1) ⟨0, 0⟩ := by
  obtain ⟨-, -, -, -, beside⟩ :=
    generate_sorted_by_time (2 ^ 48 - 2) ⟨2 ^ 12 - 1, by decide⟩ ⟨2 ^ 62 - 1, by decide⟩
  obtain ⟨told, sorted⟩ := beside (2 ^ 48 - 1) ⟨0, by decide⟩ ⟨0, by decide⟩
  refine ⟨by decide, by decide, by decide, ?_, sorted (by decide) (by decide) (by decide), rfl⟩
  exact fun same => absurd (told.mp same).1 (by decide)

end TokenId

end BearerToken

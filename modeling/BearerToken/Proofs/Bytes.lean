import Mathlib
import BearerToken.Bytes

/-!
# Laws of byte strings

A byte string of a given length and the number that it denotes determine each other, and so do eight
bytes and a signed integer of 64 bits. Layouts are therefore read back without loss, and no two byte
strings of one length stand for the same number. Nor have two texts the same bytes.
-/

namespace BearerToken.Bytes

theorem toNat_append (xs ys : Bytes) :
    toNat (xs ++ ys) = toNat xs * 256 ^ ys.length + toNat ys := by
  induction ys using List.reverseRecOn with
  | nil => simp [toNat]
  | append_singleton ys b ih =>
      rw [← List.append_assoc, toNat_append_singleton, toNat_append_singleton, ih,
        List.length_append, List.length_singleton, Nat.pow_succ, Nat.add_mul, Nat.mul_assoc,
        Nat.add_assoc]

theorem toNat_lt (bs : Bytes) : toNat bs < 256 ^ bs.length := by
  induction bs using List.reverseRecOn with
  | nil => simp [toNat]
  | append_singleton bs b ih =>
      have hb := b.toNat_lt
      rw [toNat_append_singleton, List.length_append, List.length_singleton, Nat.pow_succ]
      omega

/-- The number of a byte string, with the digit at one place set apart. -/
theorem toNat_eq_at (bs : Bytes) {i : Nat} (h : i < bs.length) :
    toNat bs = (toNat (bs.take i) * 256 + bs[i].toNat) * 256 ^ (bs.length - (i + 1)) +
      toNat (bs.drop (i + 1)) := by
  have parts : bs = (bs.take i ++ [bs[i]]) ++ bs.drop (i + 1) := by
    rw [List.take_append_getElem, List.take_append_drop]
  conv_lhs => rw [parts]
  rw [toNat_append, toNat_append_singleton, List.length_drop]

/-- Laying a number out again with as many bytes as it was read from gives the bytes back. -/
theorem ofNat_toNat (bs : Bytes) : ofNat bs.length (toNat bs) = bs := by
  induction bs using List.reverseRecOn with
  | nil => rfl
  | append_singleton bs b ih =>
      have hb := b.toNat_lt
      have quotient : (toNat bs * 256 + b.toNat) / 256 = toNat bs := by omega
      have digit : (toNat bs * 256 + b.toNat).toUInt8 = b := by
        apply UInt8.toNat_inj.mp
        simp only [Nat.toUInt8, UInt8.toNat_ofNat']
        omega
      rw [List.length_append, List.length_singleton, ofNat, toNat_append_singleton, quotient, ih,
        digit]

theorem ofInt64_toInt64 {bs : Bytes} (h : bs.length = 8) : ofInt64 (toInt64 bs) = bs := by
  have bound : toNat bs < 2 ^ 64 := by
    simpa [h] using toNat_lt bs
  have residue : (toInt64 bs % 2 ^ 64).toNat = toNat bs := by
    simp only [toInt64]
    split <;> omega
  rw [ofInt64, residue, ← h]
  exact ofNat_toNat bs

theorem toInt64_range {bs : Bytes} (h : bs.length = 8) :
    -2 ^ 63 ≤ toInt64 bs ∧ toInt64 bs < 2 ^ 63 := by
  have bound : toNat bs < 2 ^ 64 := by
    simpa [h] using toNat_lt bs
  simp only [toInt64]
  split <;> omega

@[simp] theorem length_ofInt64 (n : Int) : (ofInt64 n).length = 8 := length_ofNat 8 _

/-- A text is read back from its bytes. -/
@[simp] theorem toString?_ofString (s : String) : toString? (ofString s) = some s := by
  have whole : (⟨(ofString s).toArray⟩ : ByteArray) = s.toByteArray := rfl
  rw [toString?, whole, String.fromUTF8?, dif_pos s.isValidUTF8]
  rfl

theorem eq_ofString_of_toString? {bs : Bytes} {s : String} (reads : toString? bs = some s) :
    bs = ofString s := by
  rw [toString?, String.fromUTF8?] at reads
  split at reads
  · cases reads
    rfl
  · cases reads

theorem ofString_append (s t : String) : ofString (s ++ t) = ofString s ++ ofString t := by
  simp only [ofString, String.toUTF8, String.toByteArray_append, ByteArray.toList_data_append]

theorem ofString_injective {s t : String} (same : ofString s = ofString t) : s = t := by
  have read := toString?_ofString s
  rw [same, toString?_ofString] at read
  exact (Option.some.inj read).symm

end BearerToken.Bytes

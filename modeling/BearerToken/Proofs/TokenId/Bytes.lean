import Mathlib
import BearerToken.Proofs.Bytes
import BearerToken.TokenId

/-!
# Identifiers as bytes

The sixteen bytes of an identifier give it back, and every sixteen bytes are an identifier. Whether
it carries its creation time is written in two of the bytes: the layout in the top of the ninth and
the version in the top half of the seventh.
-/

namespace BearerToken

namespace Uuid

theorem val_ofBytes {bs : Bytes} (h : bs.length = 16) : (ofBytes bs).val = bs.toNat := by
  have bound := Bytes.toNat_lt bs
  rw [h] at bound
  exact Nat.mod_eq_of_lt (by omega)

theorem bytes_ofBytes {bs : Bytes} (h : bs.length = 16) : (ofBytes bs).bytes = bs := by
  rw [bytes, val_ofBytes h, ← h]
  exact Bytes.ofNat_toNat bs

/-- The layout bits are the top of the ninth byte and the version is the top half of the seventh. -/
theorem timed_ofBytes_iff {bs : Bytes} (h : bs.length = 16) :
    (ofBytes bs).Timed ↔ bs[8].toNat / 64 = 2 ∧ (bs[6].toNat / 16 = 1 ∨ bs[6].toNat / 16 = 7) := by
  have ninth := Bytes.toNat_eq_at bs (i := 8) (by omega)
  have seventh := Bytes.toNat_eq_at bs (i := 6) (by omega)
  have behindNinth := Bytes.toNat_lt (bs.drop (8 + 1))
  have behindSeventh := Bytes.toNat_lt (bs.drop (6 + 1))
  simp only [h, List.length_drop] at ninth seventh behindNinth behindSeventh
  have low := bs[8].toNat_lt
  have layout : bs.toNat / 2 ^ 62 % 4 = bs[8].toNat / 64 := by omega
  have low := bs[6].toNat_lt
  have version : bs.toNat / 2 ^ 76 % 16 = bs[6].toNat / 16 := by omega
  simp only [Timed, version?, isStandard, val_ofBytes h, layout, version]
  by_cases standard : bs[8].toNat / 64 = 2
  · simp [standard]
  · simp [standard]

end Uuid

namespace TokenId

theorem ofBytes_eq_ok_iff {bs : Bytes} {id : TokenId} : ofBytes bs = .ok id ↔ id.bytes = bs := by
  unfold ofBytes ofUuid
  constructor
  · intro h
    split at h
    · cases h
    · next length =>
        split at h
        · cases h
          exact Uuid.bytes_ofBytes (not_not.mp length)
        · cases h
  · rintro rfl
    have same : Uuid.ofBytes id.bytes = id.uuid := Uuid.ofBytes_bytes id.uuid
    have timed := id.timed
    simp [bytes, timed]

theorem bytes_injective {i j : TokenId} (h : i.bytes = j.bytes) : i = j := by
  apply ext
  rw [← Uuid.ofBytes_bytes i.uuid, ← Uuid.ofBytes_bytes j.uuid]
  exact congrArg Uuid.ofBytes h

/-- Sixteen bytes in the standard layout, of version 1 or 7. -/
def Readable (bs : Bytes) : Prop :=
  ∃ _ : bs.length = 16, bs[8].toNat / 64 = 2 ∧ (bs[6].toNat / 16 = 1 ∨ bs[6].toNat / 16 = 7)

/-- The bytes of token identifiers are the readable ones. -/
theorem exists_bytes_eq_iff {bs : Bytes} : (∃ id : TokenId, id.bytes = bs) ↔ Readable bs := by
  constructor
  · rintro ⟨id, rfl⟩
    have length : id.bytes.length = 16 := Uuid.length_bytes id.uuid
    refine ⟨length, (Uuid.timed_ofBytes_iff length).mp ?_⟩
    rw [bytes, Uuid.ofBytes_bytes]
    exact id.timed
  · rintro ⟨length, layout⟩
    exact ⟨⟨.ofBytes bs, (Uuid.timed_ofBytes_iff length).mpr layout⟩, Uuid.bytes_ofBytes length⟩

end TokenId

end BearerToken

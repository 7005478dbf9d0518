import Mathlib
import BearerToken.Base64Url

/-!
# One spelling for every byte string

Writing and strict reading are inverse to each other: what is written is read back, and a text that
is accepted is the text that its bytes are written as.
-/

namespace BearerToken.Base64Url

theorem value?_symbol {n : Nat} (h : n < 64) : value? (symbol n) = some n := by
  have all : ∀ i : Fin 64, value? (symbol i) = some i.val := by decide
  exact all ⟨n, h⟩

theorem toUInt8_eq {b : UInt8} {n : Nat} (h : n = b.toNat) : n.toUInt8 = b := by
  subst h
  simp [Nat.toUInt8]

/-- The values of the symbols that `encode` writes. -/
theorem mapM_value?_encode (bs : Bytes) :
    ∃ values, (encode bs).mapM value? = some values ∧ gather values = some bs := by
  fun_induction encode bs with
  | case1 a b c rest ih =>
      obtain ⟨values, read, gathered⟩ := ih
      have ha := a.toNat_lt
      have hb := b.toNat_lt
      have hc := c.toNat_lt
      refine ⟨a.toNat / 4 :: (a.toNat % 4 * 16 + b.toNat / 16) ::
        (b.toNat % 16 * 4 + c.toNat / 64) :: c.toNat % 64 :: values, ?_, ?_⟩
      · simp only [List.mapM_cons, read]
        rw [value?_symbol (by omega), value?_symbol (by omega), value?_symbol (by omega),
          value?_symbol (by omega)]
        rfl
      · rw [gather, gathered, Option.map_some, toUInt8_eq (b := a) (by omega),
          toUInt8_eq (b := b) (by omega), toUInt8_eq (b := c) (by omega)]
  | case2 a b =>
      have ha := a.toNat_lt
      have hb := b.toNat_lt
      refine ⟨[a.toNat / 4, a.toNat % 4 * 16 + b.toNat / 16, b.toNat % 16 * 4], ?_, ?_⟩
      · simp only [List.mapM_cons, List.mapM_nil]
        rw [value?_symbol (by omega), value?_symbol (by omega), value?_symbol (by omega)]
        rfl
      · rw [gather, toUInt8_eq (b := a) (by omega), toUInt8_eq (b := b) (by omega)]
  | case3 a =>
      have ha := a.toNat_lt
      refine ⟨[a.toNat / 4, a.toNat % 4 * 16], ?_, ?_⟩
      · simp only [List.mapM_cons, List.mapM_nil]
        rw [value?_symbol (by omega), value?_symbol (by omega)]
        rfl
      · rw [gather, toUInt8_eq (b := a) (by omega)]
  | case4 => exact ⟨[], rfl, rfl⟩

theorem decode_encode (bs : Bytes) : decode (encode bs) = .ok bs := by
  obtain ⟨values, read, gathered⟩ := mapM_value?_encode bs
  simp [decode, read, gathered]

/-- A text is accepted exactly when it is the one spelling of the bytes. -/
theorem decode_eq_ok_iff {text : List Char} {bs : Bytes} :
    decode text = .ok bs ↔ text = encode bs := by
  constructor
  · intro h
    exact (encode_of_decode h).symm
  · rintro rfl
    exact decode_encode bs

theorem encode_injective {bs cs : Bytes} (h : encode bs = encode cs) : bs = cs := by
  have read := decode_encode bs
  rw [h, decode_encode] at read
  exact (Except.ok.inj read).symm

end BearerToken.Base64Url

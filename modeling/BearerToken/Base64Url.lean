import BearerToken.Bytes

/-!
# Strict base64url

Bytes as text over the URL-safe alphabet, without padding: three bytes give four symbols, and one
or two bytes at the end give two or three. Decoding is strict. A text is accepted only if encoding
gives it back, so every byte string has one spelling.
-/

namespace BearerToken.Base64Url

/-- The symbol for a value below 64. -/
def symbol (n : Nat) : Char :=
  if n < 26 then Char.ofNat ('A'.toNat + n)
  else if n < 52 then Char.ofNat ('a'.toNat + (n - 26))
  else if n < 62 then Char.ofNat ('0'.toNat + (n - 52))
  else if n = 62 then '-' else '_'

/-- The value of a symbol. -/
def value? (c : Char) : Option Nat :=
  if 'A' ≤ c ∧ c ≤ 'Z' then some (c.toNat - 'A'.toNat)
  else if 'a' ≤ c ∧ c ≤ 'z' then some (c.toNat - 'a'.toNat + 26)
  else if '0' ≤ c ∧ c ≤ '9' then some (c.toNat - '0'.toNat + 52)
  else if c = '-' then some 62
  else if c = '_' then some 63
  else none

def encode : Bytes → List Char
  | a :: b :: c :: rest =>
    symbol (a.toNat / 4) :: symbol (a.toNat % 4 * 16 + b.toNat / 16) ::
      symbol (b.toNat % 16 * 4 + c.toNat / 64) :: symbol (c.toNat % 64) :: encode rest
  | [a, b] =>
    [symbol (a.toNat / 4), symbol (a.toNat % 4 * 16 + b.toNat / 16), symbol (b.toNat % 16 * 4)]
  | [a] => [symbol (a.toNat / 4), symbol (a.toNat % 4 * 16)]
  | [] => []

/-- The whole bytes in a sequence of 6-bit values. One value alone in the last group is no byte, and
bits beyond the last whole byte are dropped. -/
def gather : List Nat → Option Bytes
  | a :: b :: c :: d :: rest =>
    (gather rest).map fun bs =>
      (a * 4 + b / 16).toUInt8 :: (b % 16 * 16 + c / 4).toUInt8 :: (c % 4 * 64 + d).toUInt8 :: bs
  | [a, b, c] => some [(a * 4 + b / 16).toUInt8, (b % 16 * 16 + c / 4).toUInt8]
  | [a, b] => some [(a * 4 + b / 16).toUInt8]
  | [_] => none
  | [] => some []

/-- Why a text is not accepted. -/
inductive Fault where
  /-- A character outside the alphabet, or a length that no byte string has. -/
  | notBase64url
  /-- Bits beyond the last byte are set, so that the text is not the one spelling of its bytes. -/
  | notCanonical
  deriving Repr, DecidableEq

def decode (text : List Char) : Except Fault Bytes :=
  match (text.mapM value?).bind gather with
  | none => .error .notBase64url
  | some bs => if encode bs = text then .ok bs else .error .notCanonical

theorem encode_of_decode {text : List Char} {bs : Bytes} (h : decode text = .ok bs) :
    encode bs = text := by
  unfold decode at h
  split at h
  · cases h
  · split at h
    · cases h
      assumption
    · cases h

example : encode [0x61, 0x63, 0x63] = "YWNj".toList := by decide

end BearerToken.Base64Url

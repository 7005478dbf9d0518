import BearerToken.Numeral
import BearerToken.Text.Octets

/-!
# Faults of UTF-8

Where a text has no UTF-8 form, and where bytes are none. A text has a form unless it holds
surrogates. Bytes are the form of a text if they are those of one character after another; how many
bytes a character has, and in which ranges they lie, is told by the first of them. Of a fault the
first place is kept, with what stands there.
-/

namespace BearerToken

/-- The first surrogates of a text that has no UTF-8 form. -/
structure EncodeFault where
  position : Nat
  surrogates : Text
  deriving Repr, DecidableEq

namespace EncodeFault

def isCharacter (c : CodePoint) : Bool := c.char?.isSome

/-- The fault of a text that holds a surrogate. -/
def of (t : Text) : EncodeFault where
  position := (t.takeWhile isCharacter).length
  surrogates := (t.dropWhile isCharacter).takeWhile (!isCharacter ·)

def message (e : EncodeFault) : String :=
  let place := match e.surrogates with
    | [c] => " " ++ Text.quoted [c] ++ " in position " ++ Numeral.write e.position
    | _ => "s in position " ++ Numeral.write e.position ++ "-" ++
      Numeral.write (e.position + e.surrogates.length - 1)
  "'utf-8' codec can't encode character" ++ place ++ ": surrogates not allowed"

end EncodeFault

/-- Why bytes start with no character. -/
inductive Malformed where
  /-- No character starts with the first byte. -/
  | start
  /-- A byte lies out of its range. -/
  | continuation
  /-- There are no more bytes. -/
  | ending
  deriving Repr, DecidableEq

def Malformed.words : Malformed → String
  | .start => "invalid start byte"
  | .continuation => "invalid continuation byte"
  | .ending => "unexpected end of data"

/-- The first bytes that are no part of a UTF-8 form. -/
structure DecodeFault where
  position : Nat
  bytes : Bytes
  cause : Malformed
  deriving Repr, DecidableEq

namespace DecodeFault

/-- The range of most bytes behind the first. -/
def tail : Nat × Nat := (0x80, 0xbf)

/-- The ranges of the bytes that follow the first byte of a character, if there are any. -/
def ranges (first : UInt8) : List (Nat × Nat) :=
  let n := first.toNat
  if n < 0xc2 || 0xf4 < n then []
  else if n < 0xe0 then [tail]
  else if n < 0xf0 then
    [if n = 0xe0 then (0xa0, 0xbf) else if n = 0xed then (0x80, 0x9f) else tail, tail]
  else [if n = 0xf0 then (0x90, 0xbf) else if n = 0xf4 then (0x80, 0x8f) else tail, tail, tail]

/-- How many bytes lie each in its range. -/
def fitting : List (Nat × Nat) → Bytes → Nat
  | (low, high) :: ranges, b :: rest =>
    if low ≤ b.toNat && b.toNat ≤ high then fitting ranges rest + 1 else 0
  | _, _ => 0

/-- The fault of bytes that start with no character. -/
def ofStart (position : Nat) (first : UInt8) (rest : Bytes) : DecodeFault :=
  match ranges first with
  | [] => ⟨position, [first], .start⟩
  | ranges =>
    let count := fitting ranges rest
    ⟨position, first :: rest.take count,
      if count < rest.length then .continuation else .ending⟩

/-- The first fault of bytes that are no UTF-8 form and have this many in front of them. -/
def of (position : Nat) : Bytes → DecodeFault
  | [] => ⟨position, [], .ending⟩
  | b :: rest =>
    match Text.leading? (b :: rest) with
    | some (_, count) => of (position + 1 + (count - 1)) (rest.drop (count - 1))
    | none => ofStart position b rest
  termination_by bs => bs.length
  decreasing_by simp only [List.length_cons, List.length_drop]; omega

def message (e : DecodeFault) : String :=
  let place := match e.bytes with
    | [b] => " 0x" ++ String.ofList (Text.hex 2 b.toNat) ++ " in position " ++
      Numeral.write e.position
    | _ => "s in position " ++ Numeral.write e.position ++ "-" ++
      Numeral.write (e.position + e.bytes.length - 1)
  "'utf-8' codec can't decode byte" ++ place ++ ": " ++ e.cause.words

example : (of 0 [0x41, 0xe2, 0x82, 0x41]).message =
    "'utf-8' codec can't decode bytes in position 1-2: invalid continuation byte" := by
  decide +kernel

end DecodeFault

end BearerToken

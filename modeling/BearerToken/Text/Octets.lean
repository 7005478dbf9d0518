import BearerToken.Bytes
import BearerToken.Text

/-!
# Texts as byte strings

A system hands over its texts as byte strings, which are UTF-8 as a rule and need not be. A byte
that belongs to no character stands in the text as the surrogate that lies its value behind U+DC00,
so every byte string is a text. The way back gives such a surrogate its byte again; a text with any
other surrogate has no bytes.
-/

namespace BearerToken.Text

/-- The character that bytes start with, and the count of its bytes. -/
def leading? (bs : Bytes) : Option (Char × Nat) :=
  [1, 2, 3, 4].findSome? fun count =>
    match (Bytes.toString? (bs.take count)).map String.toList with
    | some [c] => some (c, count)
    | _ => none

/-- The surrogate that stands for a byte. -/
def ofStray (b : UInt8) : CodePoint :=
  .surrogate ⟨0x400 + b.toNat, by have := b.toNat_lt; omega⟩

/-- The text of a byte string. -/
def ofOctets : Bytes → Text
  | [] => []
  | b :: rest =>
    match leading? (b :: rest) with
    | some (c, count) => .char c :: ofOctets (rest.drop (count - 1))
    | none => ofStray b :: ofOctets rest
  termination_by bs => bs.length
  decreasing_by all_goals (simp only [List.length_cons, List.length_drop]; omega)

/-- The bytes of a code point; of the surrogates, those of bytes beyond ASCII alone have one. -/
def octets? : CodePoint → Option Bytes
  | .char c => some (Bytes.ofString c.toString)
  | .surrogate distance =>
    if 0x480 ≤ distance.val && distance.val < 0x500 then some [(distance.val - 0x400).toUInt8]
    else none

/-- The bytes of a text, if every code point has some. -/
def toOctets? (t : Text) : Option Bytes := (t.mapM octets?).map List.flatten

example : ofOctets [0x41, 0xc3, 0xa9, 0xc3, 0xff] = "Aé" ++ [ofStray 0xc3, ofStray 0xff] := by
  decide +kernel

example : toOctets? ([ofStray 0xc3, ofStray 0xa9] : Text) = some [0xc3, 0xa9] ∧
    toOctets? [.surrogate 0] = none := by
  decide +kernel

end BearerToken.Text

import BearerToken.Bytes
import BearerToken.Numeral

/-!
# 128-bit identifiers

A universally unique identifier is a number below 2^128. Its canonical text is 32 lower-case
hexadecimal digits in groups of 8, 4, 4, 4 and 12. Reading is liberal: braces, hyphens and the
`urn:` and `uuid:` marks are dropped, and the 32 code points that must remain are read as a number
in base sixteen. In the standard layout, which two bits mark, four bits hold the version.
-/

namespace BearerToken

/-- A 128-bit identifier. -/
structure Uuid where
  val : Nat
  isLt : val < 2 ^ 128
  deriving Repr, DecidableEq

/-- Why a text is no identifier. -/
inductive UuidError where
  /-- Other than 32 code points remain once the marks are dropped. -/
  | badLength
  /-- The code points that remain are no number in base sixteen. -/
  | badDigits (remaining : Text) (cause : NumeralError)
  /-- The number does not fit 128 bits. -/
  | outOfRange
  deriving Repr, DecidableEq

namespace UuidError

def message : UuidError → String
  | .badLength => "badly formed hexadecimal UUID string"
  | .badDigits remaining cause => cause.message 16 remaining
  | .outOfRange => "int is out of range (need a 128-bit value)"

end UuidError

namespace Uuid

/-- The identifier of a number, cut to its low 128 bits. -/
def ofNat (n : Nat) : Uuid := ⟨n % 2 ^ 128, Nat.mod_lt _ (by decide)⟩

@[ext] theorem ext {u v : Uuid} (h : u.val = v.val) : u = v := by
  cases u
  cases v
  cases h
  rfl

/-- The sixteen bytes, most significant first. -/
def bytes (u : Uuid) : Bytes := .ofNat 16 u.val

/-- The identifier of sixteen bytes. -/
def ofBytes (bs : Bytes) : Uuid := ofNat bs.toNat

@[simp] theorem length_bytes (u : Uuid) : u.bytes.length = 16 := by
  simp [bytes]

@[simp] theorem ofBytes_bytes (u : Uuid) : ofBytes u.bytes = u := by
  apply ext
  have h := u.isLt
  simp only [ofBytes, bytes, ofNat, Bytes.toNat_ofNat, Nat.pow_eq]
  omega

/-- The canonical text as characters. -/
def canonicalChars (u : Uuid) : List Char :=
  Text.hex 8 (u.val / 2 ^ 96) ++ '-' :: Text.hex 4 (u.val / 2 ^ 80) ++
    '-' :: Text.hex 4 (u.val / 2 ^ 64) ++ '-' :: Text.hex 4 (u.val / 2 ^ 48) ++
    '-' :: Text.hex 12 u.val

def canonical (u : Uuid) : String := String.ofList u.canonicalChars

@[simp] theorem length_canonicalChars (u : Uuid) : u.canonicalChars.length = 36 := by
  simp [canonicalChars]

/-- Whether the layout bits mark the identifier as one that has a version. -/
def isStandard (u : Uuid) : Bool := u.val / 2 ^ 62 % 4 = 2

/-- The version, which only the standard layout has. -/
def version? (u : Uuid) : Option Nat :=
  if u.isStandard then some (u.val / 2 ^ 76 % 16) else none

/-- The 60-bit count of 100 ns ticks in the time fields: the middle and high parts stand behind the
low one. -/
def ticks (u : Uuid) : Nat :=
  (u.val / 2 ^ 64 % 2 ^ 12) * 2 ^ 48 + (u.val / 2 ^ 80 % 2 ^ 16) * 2 ^ 32 + u.val / 2 ^ 96

/-- Drops every occurrence of a mark, from the left, without overlaps. -/
def dropMark (mark : Text) : Text → Text
  | [] => []
  | c :: t =>
    if mark.isPrefixOf (c :: t) then dropMark mark (t.drop (mark.length - 1))
    else c :: dropMark mark t
  termination_by t => t.length
  decreasing_by all_goals (simp only [List.length_cons, List.length_drop]; omega)

/-- What is left of a text without marks, outer braces and hyphens. -/
def bare (t : Text) : Text :=
  let unmarked := dropMark "uuid:" (dropMark "urn:" t)
  (Text.trim (fun c => c = '{' || c = '}') unmarked).filter (· ≠ '-')

/-- Reads an identifier in any of its spellings. -/
def parse (t : Text) : Except UuidError Uuid :=
  let remaining := bare t
  if remaining.length ≠ 32 then .error .badLength
  else match Numeral.read 16 remaining with
    | .error cause => .error (.badDigits remaining cause)
    | .ok n => if h : 0 ≤ n ∧ n < 2 ^ 128 then .ok ⟨n.toNat, by omega⟩ else .error .outOfRange

example : (parse "{URN:018bcfe5-6800-7123-8123-456789abcdef}").toOption = none ∧
    (parse "urn:uuid:018BCFE5-6800-7123-8123-456789abcdef").toOption.map canonical =
      some "018bcfe5-6800-7123-8123-456789abcdef" := by
  decide +kernel

end Uuid

end BearerToken

import BearerToken.Text

/-!
# Blank characters

The characters that count as white space around a text: the Unicode property, together with the
four information separators U+001C to U+001F. The zero-width space and the byte-order mark are
not among them.
-/

namespace BearerToken.Text

/-- First and last code point of each run of blank characters. -/
def blankRuns : List (Nat × Nat) :=
  [(0x09, 0x0d), (0x1c, 0x20), (0x85, 0x85), (0xa0, 0xa0), (0x1680, 0x1680), (0x2000, 0x200a),
   (0x2028, 0x2029), (0x202f, 0x202f), (0x205f, 0x205f), (0x3000, 0x3000)]

/-- Membership of a code point in a list of runs. -/
def inRuns (runs : List (Nat × Nat)) (n : Nat) : Bool :=
  runs.any fun run => run.1 ≤ n && n ≤ run.2

def isBlank (c : CodePoint) : Bool := inRuns blankRuns c.toNat

/-- Removes the code points that pass the test from both ends. -/
def trim (p : CodePoint → Bool) (t : Text) : Text :=
  ((t.dropWhile p).reverse.dropWhile p).reverse

/-- The text without the blanks at its two ends. -/
def strip (t : Text) : Text := trim isBlank t

end BearerToken.Text

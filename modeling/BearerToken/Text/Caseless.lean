import BearerToken.Text

/-!
# Names compared without regard to case

Kinds, levels and switches are named in ASCII, and a name given in any case is accepted. A few
characters outside ASCII have an ASCII letter, or several, as their upper-case or lower-case form,
so they too may spell a name. `upper` and `lower` change exactly the characters whose form lies in
ASCII. Every other code point is left alone, and as its true form is outside ASCII as well, the
comparison with an ASCII name comes out the same.
-/

namespace BearerToken.Text

/-- Characters outside ASCII whose upper-case form is made of ASCII letters. -/
def upperForms : List (Char × List Char) :=
  [('\u00df', ['S', 'S']), ('\u0131', ['I']), ('\u017f', ['S']), ('\ufb00', ['F', 'F']),
   ('\ufb01', ['F', 'I']), ('\ufb02', ['F', 'L']), ('\ufb03', ['F', 'F', 'I']),
   ('\ufb04', ['F', 'F', 'L']), ('\ufb05', ['S', 'T']), ('\ufb06', ['S', 'T'])]

/-- Characters outside ASCII whose lower-case form is made of ASCII letters. -/
def lowerForms : List (Char × List Char) := [('\u212a', ['k'])]

def upperPoint : CodePoint → Text
  | .char c => ofChars ((upperForms.lookup c).getD [c.toUpper])
  | c => [c]

def lowerPoint : CodePoint → Text
  | .char c => ofChars ((lowerForms.lookup c).getD [c.toLower])
  | c => [c]

def upper (t : Text) : Text := t.flatMap upperPoint

def lower (t : Text) : Text := t.flatMap lowerPoint

example : upper "o\ufb04\u0131ne" = ofString "OFFLINE" := by decide

end BearerToken.Text

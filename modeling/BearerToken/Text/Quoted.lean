import BearerToken.Text.Hex
import BearerToken.Text.Printable

/-!
# Quoted text

How a rejected text is shown in a message: between quotes, on one line, with every code point that
cannot be seen written as an escape. The quote is an apostrophe, unless the text holds an apostrophe
and no double quote. What comes of it is a string of characters, whatever the text holds.
-/

namespace BearerToken.Text

/-- The quote around a text. -/
def quoteFor (t : Text) : Char :=
  if t.contains (.char '\'') && !t.contains (.char '"') then '"' else '\''

/-- A code point as the shortest of the three numeric escapes that holds it. -/
def numericEscape (n : Nat) : List Char :=
  if n < 0x100 then '\\' :: 'x' :: hex 2 n
  else if n < 0x10000 then '\\' :: 'u' :: hex 4 n
  else '\\' :: 'U' :: hex 8 n

def quotedPoint (quote : Char) : CodePoint → List Char
  | .char c =>
    if c = quote || c = '\\' then ['\\', c]
    else if c = '\n' then ['\\', 'n']
    else if c = '\r' then ['\\', 'r']
    else if c = '\t' then ['\\', 't']
    else if isPrintable c then [c]
    else numericEscape c.toNat
  | c => numericEscape c.toNat

def quotedChars (t : Text) : List Char :=
  let quote := quoteFor t
  quote :: t.flatMap (quotedPoint quote) ++ [quote]

def quoted (t : Text) : String := String.ofList (quotedChars t)

example : quoted "it's" = "\"it's\"" ∧ quoted "a\u200b\\" = "'a\\u200b\\\\'" ∧
    quoted [.surrogate 0] = "'\\ud800'" := by
  decide +kernel

end BearerToken.Text

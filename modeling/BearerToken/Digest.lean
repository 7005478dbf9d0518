import BearerToken.Digest.Sha1
import BearerToken.Digest.Sha256

/-!
# Digest functions of the signatures

Signatures are twenty bytes, whichever of the two formats made them. A token codec takes its two
digest functions as a value, of which only their width is known, so what is said of a codec holds
for any such functions. `standard` is the pair in use.
-/

namespace BearerToken

/-- A digest and a keyed digest of twenty bytes. -/
structure Digests where
  plain : Bytes → Bytes
  keyed : Bytes → Bytes → Bytes
  length_plain : ∀ message, (plain message).length = 20
  length_keyed : ∀ key message, (keyed key message).length = 20

namespace Digests

/-- The 160-bit hash, and the keyed 256-bit hash cut to twenty bytes. -/
def standard : Digests where
  plain := Digest.Sha1.hash
  keyed key message := (Digest.Sha256.keyed key message).take 20
  length_plain := Digest.Sha1.length_hash
  length_keyed key message := by simp

instance : Inhabited Digests := ⟨standard⟩

end Digests

end BearerToken

import BearerToken.Uuid

/-!
# Token identifiers

A token identifier is an identifier that carries its creation time: a random one that starts with 48
bits of epoch milliseconds (version 7), or a time-based one that counts 100 ns ticks since
1582-10-15 (version 1). The type admits no other, so every token identifier has a time, and the
lifetime of a token never has to trust a time given beside it.
-/

namespace BearerToken

/-- Whether an identifier carries its creation time. -/
def Uuid.Timed (u : Uuid) : Prop := u.version? = some 1 ∨ u.version? = some 7

instance (u : Uuid) : Decidable u.Timed := inferInstanceAs (Decidable (_ ∨ _))

/-- An identifier that carries its creation time. -/
structure TokenId where
  uuid : Uuid
  timed : uuid.Timed
  deriving DecidableEq

/-- Why something is no token identifier. -/
inductive TokenIdError where
  | notUuid (cause : UuidError)
  | notTimed (uuid : Uuid)
  | badLength (length : Nat)
  deriving Repr, DecidableEq

namespace TokenIdError

def message : TokenIdError → String
  | .notUuid cause => cause.message
  | .notTimed uuid => "Token id carries no timestamp: " ++ uuid.canonical
  | .badLength length => "Token id must be 16 bytes, got " ++ Numeral.write length

end TokenIdError

/-- The random part of a new identifier: 12 bits and 62 bits. -/
structure Entropy where
  high : Nat
  low : Nat
  deriving Repr, DecidableEq

namespace TokenId

/-- Ticks of 100 ns from the start of the Gregorian calendar to the start of epoch time. -/
def gregorianOffset : Nat := 0x01b21dd213814000

def ofUuid (u : Uuid) : Except TokenIdError TokenId :=
  if h : u.Timed then .ok ⟨u, h⟩ else .error (.notTimed u)

def ofBytes (bs : Bytes) : Except TokenIdError TokenId :=
  if bs.length ≠ 16 then .error (.badLength bs.length) else ofUuid (.ofBytes bs)

def parse (t : Text) : Except TokenIdError TokenId :=
  match Uuid.parse t with
  | .error cause => .error (.notUuid cause)
  | .ok u => ofUuid u

/-- The number of a new identifier: 48 bits of time, the version, 12 random bits, the layout bits,
and 62 random bits. -/
def rawOf (nowMs : Int) (e : Entropy) : Nat :=
  (nowMs % 2 ^ 48).toNat * 2 ^ 80 + 7 * 2 ^ 76 + e.high % 2 ^ 12 * 2 ^ 64 + 2 * 2 ^ 62 +
    e.low % 2 ^ 62

theorem rawOf_lt (nowMs : Int) (e : Entropy) : rawOf nowMs e < 2 ^ 128 := by
  unfold rawOf
  omega

theorem timed_rawOf (nowMs : Int) (e : Entropy) : Uuid.Timed ⟨rawOf nowMs e, rawOf_lt nowMs e⟩ := by
  refine .inr ?_
  have hs : rawOf nowMs e / 2 ^ 62 % 4 = 2 := by
    unfold rawOf
    omega
  have hv : rawOf nowMs e / 2 ^ 76 % 16 = 7 := by
    unfold rawOf
    omega
  simp only [Uuid.version?, Uuid.isStandard, hs, hv, decide_true, if_true]

/-- A new identifier for the time `nowMs`, of which the low 48 bits are kept. -/
def generate (nowMs : Int) (e : Entropy) : TokenId :=
  ⟨⟨rawOf nowMs e, rawOf_lt nowMs e⟩, timed_rawOf nowMs e⟩

/-- The creation time in epoch milliseconds. -/
def timestampMs (id : TokenId) : Int :=
  if id.uuid.version? = some 7 then (id.uuid.val / 2 ^ 80 : Nat)
  else ((id.uuid.ticks : Int) - gregorianOffset) / 10000

def bytes (id : TokenId) : Bytes := id.uuid.bytes

def canonical (id : TokenId) : String := id.uuid.canonical

@[ext] theorem ext {i j : TokenId} (h : i.uuid = j.uuid) : i = j := by
  cases i
  cases j
  cases h
  rfl

end TokenId

end BearerToken

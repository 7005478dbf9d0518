import BearerToken.Digest.Block

/-!
# The secure hash algorithm of 160 bits

Eighty rounds on five words for each block, and the five words at the end are the digest.
-/

namespace BearerToken.Digest.Sha1

/-- The five words of the running hash. -/
structure State where
  a : UInt32
  b : UInt32
  c : UInt32
  d : UInt32
  e : UInt32
  deriving Repr, DecidableEq

def start : State := ⟨0x67452301, 0xefcdab89, 0x98badcfe, 0x10325476, 0xc3d2e1f0⟩

def nextWord (window : List UInt32) : UInt32 :=
  rotateLeft (window.getD 13 0 ^^^ window.getD 8 0 ^^^ window.getD 2 0 ^^^ window.getD 0 0) 1

/-- The mixing function and the constant of a round; both change every twenty rounds. -/
def mix (round : Nat) (b c d : UInt32) : UInt32 × UInt32 :=
  if round < 20 then ((b &&& c) ||| (~~~b &&& d), 0x5a827999)
  else if round < 40 then (b ^^^ c ^^^ d, 0x6ed9eba1)
  else if round < 60 then ((b &&& c) ||| (b &&& d) ||| (c &&& d), 0x8f1bbcdc)
  else (b ^^^ c ^^^ d, 0xca62c1d6)

def step (s : State) (round : Nat) (w : UInt32) : State :=
  let (f, k) := mix round s.b s.c s.d
  ⟨rotateLeft s.a 5 + f + s.e + k + w, s.a, rotateLeft s.b 30, s.c, s.d⟩

def rounds (s : State) (round : Nat) : List UInt32 → State
  | [] => s
  | w :: ws => rounds (step s round w) (round + 1) ws

def compress (s : State) (block : List UInt32) : State :=
  let t := rounds s 0 (schedule nextWord 80 block)
  ⟨s.a + t.a, s.b + t.b, s.c + t.c, s.d + t.d, s.e + t.e⟩

def State.bytes (s : State) : Bytes :=
  wordBytes s.a ++ wordBytes s.b ++ wordBytes s.c ++ wordBytes s.d ++ wordBytes s.e

def hash (message : Bytes) : Bytes := ((messageBlocks message).foldl compress start).bytes

@[simp] theorem length_hash (message : Bytes) : (hash message).length = 20 := by
  simp [hash, State.bytes, wordBytes]

end BearerToken.Digest.Sha1

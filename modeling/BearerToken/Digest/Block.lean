import BearerToken.Bytes

/-!
# Messages as blocks of words

What the two secure hash algorithms share: a message is closed by a one bit, filled with zeros, and
ended by its length in bits, so that it falls into blocks of 64 bytes. A block is sixteen big-endian
words of 32 bits, extended to as many words as there are rounds.
-/

namespace BearerToken.Digest

/-- The message filled up to a multiple of 64 bytes. -/
def padded (message : Bytes) : Bytes :=
  let zeros := (119 - message.length % 64) % 64
  message ++ 0x80 :: List.replicate zeros 0 ++ Bytes.ofNat 8 (message.length * 8)

/-- Big-endian words; up to three bytes at the end are dropped. -/
def words : Bytes → List UInt32
  | a :: b :: c :: d :: rest =>
    ((a.toUInt32 <<< 24) ||| (b.toUInt32 <<< 16) ||| (c.toUInt32 <<< 8) ||| d.toUInt32) ::
      words rest
  | _ => []

/-- Groups of sixteen words; a shorter group at the end is dropped. -/
def blocks : (fuel : Nat) → List UInt32 → List (List UInt32)
  | 0, _ => []
  | fuel + 1, ws => if ws.length < 16 then [] else ws.take 16 :: blocks fuel (ws.drop 16)

def messageBlocks (message : Bytes) : List (List UInt32) :=
  let ws := words (padded message)
  blocks ws.length ws

def rotateLeft (x : UInt32) (n : UInt32) : UInt32 := (x <<< n) ||| (x >>> (32 - n))

def rotateRight (x : UInt32) (n : UInt32) : UInt32 := (x >>> n) ||| (x <<< (32 - n))

/-- The words for `count` rounds. `window` holds the next sixteen of them; `next` gives the word
that follows a window. -/
def schedule (next : List UInt32 → UInt32) : (count : Nat) → (window : List UInt32) → List UInt32
  | 0, _ => []
  | _ + 1, [] => []
  | count + 1, w :: ws => w :: schedule next count (ws ++ [next (w :: ws)])

/-- The four bytes of a word. -/
def wordBytes (w : UInt32) : Bytes := Bytes.ofNat 4 w.toNat

end BearerToken.Digest

/-!
# Powers

Powers of natural numbers and of integers are those of the core library in every module, also where
the algebra in scope offers powers of its own. Where the exponent can be negative the power scales a
ratio of naturals.
-/

attribute [default_instance 100000000] instPowNat

namespace BearerToken

/-- The ratio `num / den` times `base^exponent`, as a ratio. -/
def timesPower (base num den : Nat) (exponent : Int) : Nat × Nat :=
  match exponent with
  | .ofNat k => (num * Nat.pow base k, den)
  | .negSucc k => (num, den * Nat.pow base (k + 1))

end BearerToken

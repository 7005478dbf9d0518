/-!
# Limits

Reading a decimal numeral takes time that grows faster than the count of its digits, and each value
inside another takes room on the stack, so the runtime bounds both. The bounds are its own: who runs
the library can set others, and can lift the one on digits. Whatever reads or writes numbers and
values does so under limits that it is given, and `standard` are those in force where nobody has set
others.
-/

namespace BearerToken

/-- How much is read and written. -/
class Limits where
  /-- As many decimal digits make an integer, and no more; there may be no bound. -/
  digits : Option Nat
  /-- As many containers can stand inside each other. -/
  depth : Nat

namespace Limits

instance standard : Limits where
  digits := some 4300
  depth := 988

end Limits

end BearerToken

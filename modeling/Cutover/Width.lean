/-
# Cutover.Width -- numbers of a fixed count of bits

How many values there are of 16, 32 and 64 bits.  A number with a sign lies between
the half of them below zero and the half from zero on.
-/

namespace Cutover.Width

set_option autoImplicit false

abbrev bits16 : Nat := 65536

abbrev bits32 : Nat := 4294967296

abbrev bits64 : Nat := 18446744073709551616

abbrev half32 : Nat := 2147483648

abbrev half64 : Nat := 9223372036854775808

/-- Whether a number lies between a half below zero and the half from zero on. -/
def isSigned (half : Nat) (n : Int) : Bool := -(half : Int) ≤ n && n < (half : Int)

end Cutover.Width

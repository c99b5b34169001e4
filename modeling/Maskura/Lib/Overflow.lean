import Mathlib.Algebra.Order.Ring.Nat

/-!
Arithmetic of a fixed width. Where a result does not fit, a program built with
overflow checks stops, and one built without them goes on with a value that is too
small.
-/

namespace Maskura.Lib.Overflow

/-- Whether the program was built with overflow checks. -/
inductive Build
  | checked
  | wrapping
  deriving DecidableEq

/-- The result of an operation on integers of some width; none is a panic. -/
def Build.narrow (build : Build) (width t : ℕ) : Option ℕ :=
  if t < 2 ^ width then some t
  else
    match build with
    | .checked => none
    | .wrapping => some (t % 2 ^ width)

theorem narrow_of_lt {build : Build} {width t : ℕ} (h : t < 2 ^ width) :
    build.narrow width t = some t := if_pos h

end Maskura.Lib.Overflow

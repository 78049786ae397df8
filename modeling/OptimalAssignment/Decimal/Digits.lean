import OptimalAssignment.Binary.Real
import OptimalAssignment.Text.Digit

/-!
# Decimal digits of exact values

A decimal is `digits * 10 ^ exponent`.  `shortest` finds the decimal with the fewest digits among
those that read back as a given double, and of these the nearest to it; `significant` rounds a
double to a fixed number of digits.
-/

namespace OptimalAssignment.Decimal

open Binary Text

/-- Digits of a positive number, most significant first. -/
def digitsOf (n : Nat) : List Char :=
  (toString n).toList

def pow10 (k : Nat) : Nat :=
  Nat.pow 10 k

/-- `n * 10 ^ e` as a quotient. -/
def scaleTen (n : Nat) (e : Int) : Nat × Nat :=
  if 0 ≤ e then (n * pow10 e.toNat, 1) else (n, pow10 (-e).toNat)

/-- The power of ten of the leading digit of `n / d`, for positive `n` and `d`. -/
def leadingPower (n d : Nat) : Int :=
  let k : Int := (digitsOf n).length - (digitsOf d).length
  let (a, b) := scaleTen d k
  if n * b < a then k - 1 else k

/-- The quotient of `n / d` by `10 ^ e`. -/
def overPower (n d : Nat) (e : Int) : Nat × Nat :=
  let (a, b) := scaleTen d e
  (n * b, a)

/-! ## Shortest digits -/

/-- The reals that read back as the double `m * 2 ^ e`, in units of `2 ^ (e - 2)`. -/
structure Interval where
  low : Nat
  high : Nat
  closed : Bool

/-- The gap below a power of two is half the gap above it, except at the smallest exponent. -/
def Interval.around (m : Nat) (e : Int) : Interval where
  low := if m = pow2 52 ∧ e ≠ double.minExponent then 4 * m - 1 else 4 * m - 2
  high := 4 * m + 2
  closed := m % 2 = 0

/-- Whether `c * 10 ^ g` lies in the interval, whose unit is `2 ^ u`. -/
def Interval.holds (i : Interval) (u : Int) (c : Nat) (g : Int) : Bool :=
  let (a, b) := scaleTen c g
  let (s, t) := scale 1 u
  let value := a * t
  let low := i.low * s * b
  let high := i.high * s * b
  if i.closed then low ≤ value && value ≤ high else low < value && value < high

/-- The grid point of `length` digits that reads back as `m * 2 ^ e`, if there is one.  Of two the
nearer is taken, and of two equally near the even one. -/
def onGrid (m : Nat) (e : Int) (length : Nat) : Option (Nat × Int) :=
  let (n, d) := scale m e
  let g := leadingPower n d - (length - 1)
  let (a, b) := overPower n d g
  let i := Interval.around m e
  let below := a / b
  let nearest := roundDiv a b
  let other := if nearest = below then below + 1 else below
  if i.holds (e - 2) nearest g then some (nearest, g)
  else if i.holds (e - 2) other g then some (other, g)
  else none

/-- Seventeen digits tell all doubles apart. -/
def shortest (m : Nat) (e : Int) : Nat × Int :=
  ((List.range 17).findSome? fun k => onGrid m e (k + 1)).getD (m, 0)

/-! ## A fixed number of digits -/

/-- `m * 2 ^ e` to `places` digits. -/
def significant (places m : Nat) (e : Int) : Nat × Int :=
  let (n, d) := scale m e
  let g := leadingPower n d - (places - 1)
  let (a, b) := overPower n d g
  (roundDiv a b, g)

/-- Digits without trailing zeros, and the power of ten of the first one. -/
def leading (c : Nat) (g : Int) : List Char × Int :=
  let ds := digitsOf c
  ((ds.reverse.dropWhile (· == '0')).reverse, g + (ds.length - 1))

end OptimalAssignment.Decimal

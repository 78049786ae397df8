/-!
# Binary floating-point formats

A finite value of a format is `mantissa * 2 ^ exponent` with a mantissa of at most `precision`
bits.  `Format.round` takes an exact quotient to the nearest such value, a half going to the even
mantissa, and answers nothing when the result would need a larger exponent than the format has.
-/

namespace OptimalAssignment.Binary

/-- Precision in bits and the exponents of the unit in the last place. -/
structure Format where
  precision : Nat
  minExponent : Int
  maxExponent : Int

def half : Format := ⟨11, -24, 5⟩
def single : Format := ⟨24, -149, 104⟩
def double : Format := ⟨53, -1074, 971⟩

/-- `n / d` to the nearest natural, a half to the even neighbour. -/
def roundDiv (n d : Nat) : Nat :=
  let q := n / d
  let r := n % d
  if 2 * r < d then q
  else if d < 2 * r then q + 1
  else if q % 2 = 0 then q else q + 1

/-- The quotient never moves by more than half a unit. -/
theorem roundDiv_near (n d : Nat) (h : 0 < d) :
    2 * n ≤ (2 * roundDiv n d + 1) * d ∧ 2 * roundDiv n d * d ≤ 2 * n + d := by
  have hdiv := Nat.div_add_mod n d
  have hmod := Nat.mod_lt n h
  have hq : d * (n / d) = n / d * d := Nat.mul_comm _ _
  have e : (2 * (n / d) + 1) * d = 2 * (n / d * d) + d := by
    rw [Nat.add_mul, Nat.mul_assoc, Nat.one_mul]
  have e' : (2 * (n / d + 1) + 1) * d = 2 * (n / d * d) + 3 * d := by
    rw [Nat.add_mul, Nat.mul_assoc, Nat.add_mul, Nat.one_mul]; omega
  have f : 2 * (n / d) * d = 2 * (n / d * d) := by rw [Nat.mul_assoc]
  have f' : 2 * (n / d + 1) * d = 2 * (n / d * d) + 2 * d := by
    rw [Nat.mul_assoc, Nat.add_mul, Nat.one_mul]; omega
  unfold roundDiv
  simp only []
  split
  · rw [e, f]; omega
  · split
    · rw [e', f']; omega
    · split
      · rw [e, f]; omega
      · rw [e', f']; omega

def pow2 (k : Nat) : Nat :=
  Nat.pow 2 k

/-- `n * 2 ^ e` as a quotient. -/
def scale (n : Nat) (e : Int) : Nat × Nat :=
  if 0 ≤ e then (n * pow2 e.toNat, 1) else (n, pow2 (-e).toNat)

/-- The exponent of the leading bit of `n / d`, for positive `n` and `d`. -/
def leadingExponent (n d : Nat) : Int :=
  let k : Int := n.log2 - d.log2
  let (a, b) := scale d k
  if n * b < a then k - 1 else k

/-- The mantissa and exponent nearest to `n / d`; nothing on overflow. -/
def Format.round (f : Format) (n d : Nat) : Option (Nat × Int) :=
  if n = 0 then some (0, f.minExponent)
  else
    let e := max f.minExponent (leadingExponent n d - (f.precision - 1))
    let (a, b) := scale d e
    let m := roundDiv (n * b) a
    let (m, e) := if m = pow2 f.precision then (m / 2, e + 1) else (m, e)
    if f.maxExponent < e then none else some (m, e)

end OptimalAssignment.Binary

import OptimalAssignment.Binary.Format

/-!
# Machine reals

The exact value of a double and the doubles nearest to exact values.
-/

namespace OptimalAssignment.Binary

/-- What a double stands for: a finite value is `± mantissa * 2 ^ exponent`. -/
inductive Exact where
  | nan
  | infinite (negative : Bool)
  | finite (negative : Bool) (mantissa : Nat) (exponent : Int)
  deriving Repr, DecidableEq

/-- Reads a word of a given number of exponent and fraction bits. -/
def decode (exponentBits fractionBits word : Nat) : Exact :=
  let fraction := word % pow2 fractionBits
  let field := word / pow2 fractionBits % pow2 exponentBits
  let negative := word / pow2 (exponentBits + fractionBits) % 2 == 1
  let bias : Int := (pow2 (exponentBits - 1) : Int) - 2 + fractionBits
  if field = pow2 exponentBits - 1 then
    if fraction = 0 then .infinite negative else .nan
  else if field = 0 then .finite negative fraction (-bias)
  else .finite negative (pow2 fractionBits + fraction) (field - 1 - bias)

def decodeHalf (word : Nat) : Exact := decode 5 10 word
def decodeSingle (word : Nat) : Exact := decode 8 23 word
def exact (x : Float) : Exact := decode 11 52 x.toBits.toNat

/-- Reads a word of 80 bits, whose mantissa shows its leading bit. -/
def decodeExtended (word : Nat) : Exact :=
  let mantissa := word % pow2 64
  let field := word / pow2 64 % pow2 15
  let negative := word / pow2 79 % 2 == 1
  if field = pow2 15 - 1 then
    if mantissa = pow2 63 then .infinite negative else .nan
  else if field = 0 then .finite negative mantissa (-16445)
  else if mantissa < pow2 63 then .nan
  else .finite negative mantissa (field - 16446)

/-- The word of a finite double whose mantissa and exponent are those of the format. -/
def encode (negative : Bool) (mantissa : Nat) (exponent : Int) : Nat :=
  (if negative then pow2 63 else 0) +
    if mantissa < pow2 52 then mantissa
    else (exponent + 1075).toNat * pow2 52 + (mantissa - pow2 52)

def infinity (negative : Bool) : Float :=
  Float.ofBits (if negative then 0xfff0000000000000 else 0x7ff0000000000000)

def notANumber : Float :=
  Float.ofBits 0x7ff8000000000000

/-- The double nearest to `± n / d`; nothing if that is beyond the largest double. -/
def ofQuotient? (negative : Bool) (n d : Nat) : Option Float :=
  (double.round n d).map fun (m, e) => Float.ofBits (UInt64.ofNat (encode negative m e))

def ofQuotient (negative : Bool) (n d : Nat) : Float :=
  (ofQuotient? negative n d).getD (infinity negative)

def ofInt? (i : Int) : Option Float :=
  ofQuotient? (i < 0) i.natAbs 1

/-- The double that holds an exact value; it is rounded if it does not fit. -/
def Exact.toFloat : Exact → Float
  | .nan => notANumber
  | .infinite negative => infinity negative
  | .finite negative m e => ofQuotient negative (scale m e).1 (scale m e).2

/-- A double rounded to a narrower format. -/
def narrow (f : Format) (x : Float) : Float :=
  match exact x with
  | .finite negative m e =>
      match f.round (scale m e).1 (scale m e).2 with
      | some (m, e) => ofQuotient negative (scale m e).1 (scale m e).2
      | none => infinity negative
  | _ => x

/-- The integer part, toward zero. -/
def truncate? (x : Float) : Option Int :=
  match exact x with
  | .finite negative m e =>
      let n : Int := (scale m e).1 / (scale m e).2
      some (if negative then -n else n)
  | _ => none

/-- Compares a double with an integer by their exact values; a NaN compares with nothing. -/
def compareInt? (x : Float) (i : Int) : Option Ordering :=
  match exact x with
  | .nan => none
  | .infinite negative => some (if negative then .lt else .gt)
  | .finite negative m e =>
      let n : Int := (scale m e).1
      some (compare (if negative then -n else n) (i * (scale m e).2))

end OptimalAssignment.Binary

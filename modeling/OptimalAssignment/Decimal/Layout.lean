import OptimalAssignment.Decimal.Digits

/-!
# Decimal layouts

A layout says which powers of ten are written out with a point in place, what a whole number ends
with, and how infinity and NaN are called.  `Layout.write` writes the shortest digits of a double,
`Layout.writeRounded` a fixed number of them.
-/

namespace OptimalAssignment.Decimal

open Binary

structure Layout where
  /-- The smallest power of the leading digit that is written in place. -/
  placedFrom : Int
  /-- The smallest power of the leading digit that needs an exponent again. -/
  placedBelow : Int
  /-- What follows a whole number that is written in place. -/
  wholeTail : String
  /-- What follows a single digit in front of an exponent. -/
  digitTail : String
  nan : String
  infinite : String

/-- Numbers in messages and values. -/
def plain : Layout := ⟨-4, 16, ".0", "", "nan", "inf"⟩

/-- The parts of a complex number. -/
def bare : Layout := { plain with wholeTail := "" }

def zeros (n : Nat) : List Char :=
  List.replicate n '0'

/-- Digits with the point after the place of power zero. -/
def place (wholeTail : String) (ds : List Char) (power : Int) : List Char :=
  if power < 0 then '0' :: '.' :: zeros (-power - 1).toNat ++ ds
  else
    let whole := power.toNat + 1
    let tail := ds.drop whole
    ds.take whole ++ zeros (whole - ds.length) ++
      if tail.isEmpty then wholeTail.toList else '.' :: tail

/-- An exponent has a sign and at least two digits. -/
def exponentText (power : Int) : List Char :=
  let ds := digitsOf power.natAbs
  (if power < 0 then '-' else '+') :: zeros (2 - ds.length) ++ ds

def withExponent (digitTail : String) (ds : List Char) (power : Int) : List Char :=
  let tail := ds.drop 1
  ds.take 1 ++ (if tail.isEmpty then digitTail.toList else '.' :: tail) ++
    'e' :: exponentText power

def Layout.digits (l : Layout) (ds : List Char) (power : Int) : List Char :=
  if l.placedFrom ≤ power ∧ power < l.placedBelow then place l.wholeTail ds power
  else withExponent l.digitTail ds power

def Layout.signed (negative : Bool) (cs : List Char) : String :=
  String.ofList (if negative then '-' :: cs else cs)

/-- Writes a double with the digits that `choose` picks for its exact value. -/
def Layout.writeWith (l : Layout) (choose : Nat → Int → Nat × Int) (x : Float) : String :=
  match exact x with
  | .nan => l.nan
  | .infinite negative => Layout.signed negative l.infinite.toList
  | .finite negative m e =>
      if m = 0 then Layout.signed negative (l.digits ['0'] 0)
      else
        let (c, g) := choose m e
        let (ds, power) := leading c g
        Layout.signed negative (l.digits ds power)

def Layout.write (l : Layout) (x : Float) : String :=
  l.writeWith shortest x

def Layout.writeRounded (l : Layout) (places : Nat) (x : Float) : String :=
  l.writeWith (significant places) x

/-- A double to six digits, trailing zeros dropped. -/
def general (x : Float) : String :=
  { bare with placedBelow := 6 }.writeRounded 6 x

end OptimalAssignment.Decimal

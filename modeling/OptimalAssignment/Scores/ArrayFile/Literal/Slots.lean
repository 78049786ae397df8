import OptimalAssignment.Scores.ArrayFile.Literal

/-!
# Slots of sets

The members of a set stand in the slots of a table, which is searched from the slot that a member's
number gives.  The table is enlarged before more than three fifths of its slots are taken.
-/

namespace OptimalAssignment.ArrayFile.Literal

open Binary

/-- The modulus of the numbers of members. -/
def modulus : Nat := pow2 61 - 1

/-- The number of a whole number; minus one has that of minus two. -/
def hashOfInt (i : Int) : Int :=
  let n : Int := i.natAbs % modulus
  if i < 0 then (if n = 1 then -2 else -n) else n

/-- A power of two counts by its exponent modulo 61. -/
def hashOfReal (x : Float) : Int :=
  match exact x with
  | .nan => 0
  | .infinite negative => if negative then -314159 else 314159
  | .finite negative m e =>
      let n : Int := m * pow2 (e % 61).toNat % modulus
      hashOfInt (if negative then -n else n)

def hashOfComplex (re im : Float) : Int :=
  let n := (hashOfReal re + 1000003 * hashOfReal im).bmod (pow2 64)
  if n = -1 then -2 else n

/-- The number of a member, if that is a number. -/
def hash? : Literal → Option Nat
  | .bool b => some b.toNat
  | .int i => some (hashOfInt i % pow2 64).toNat
  | .real x => some (hashOfReal x % pow2 64).toNat
  | .complex re im => some (hashOfComplex re im % pow2 64).toNat
  | _ => Option.none

abbrev Table := Array (Option (Nat × Literal))

/-- The first free slot among ten neighbours, or in a single slot near the end of the table. -/
def freeNear? (table : Table) (i : Nat) : Option Nat :=
  let width := if i + 9 < table.size then 10 else 1
  (List.range width).map (i + ·) |>.find? fun k => (table[k]?.getD Option.none).isNone

/-- The slot for a member; later places depend on more and more of its number. -/
def slotFor (table : Table) : Nat → Nat → Nat → Nat
  | 0, i, _ => i
  | steps + 1, i, rest =>
      match freeNear? table i with
      | some k => k
      | Option.none => slotFor table steps ((5 * i + 1 + rest / 32) % table.size) (rest / 32)

def put (table : Table) (member : Nat × Literal) : Table :=
  table.setIfInBounds (slotFor table (20 + table.size) (member.1 % table.size) member.1)
    (some member)

def taken (table : Table) : List (Nat × Literal) :=
  table.toList.filterMap id

/-- The least of these sizes that is larger than a number. -/
def sizeAbove (n : Nat) : Nat → Nat → Nat
  | 0, size => size
  | steps + 1, size => if n < size then size else sizeAbove n steps (2 * size)

def enlarged (table : Table) : Table :=
  let members := taken table
  if 5 * members.length < 3 * (table.size - 1) then table
  else
    let n := 4 * members.length
    members.foldl put (Array.replicate (sizeAbove n n 8) Option.none)

/-- Numbers in the order of their slots; any other members in the order in which they were given. -/
def inSlots (items : List Literal) : List Literal :=
  match items.mapM fun v => v.hash?.map (·, v) with
  | some members =>
      (taken (members.foldl (fun t m => enlarged (put t m)) (Array.replicate 8 Option.none))).map
        Prod.snd
  | Option.none => items

end OptimalAssignment.ArrayFile.Literal

import OptimalAssignment.Value

/-!
# Kinds of cells

What the cells of an array hold.  Loose values are given the smallest kind that holds all of them;
the kinds of whole numbers that fit no common kind meet in the reals.
-/

namespace OptimalAssignment

/-- Numbers have a width in bits, texts and byte strings a greatest length. -/
inductive Kind where
  | bool
  | int (bits : Nat)
  | uint (bits : Nat)
  | real (bits : Nat)
  | complex (bits : Nat)
  | text (length : Nat)
  | bytes (length : Nat)
  | any
  deriving DecidableEq, Repr

namespace Kind

def name : Kind → String
  | .bool => "bool"
  | .int bits => s!"int{bits}"
  | .uint bits => s!"uint{bits}"
  | .real bits => s!"float{bits}"
  | .complex bits => s!"complex{bits}"
  | .text length => s!"<U{length}"
  | .bytes length => s!"|S{length}"
  | .any => "object"

/-- Whether the cells are real numbers, or values of which each may be one. -/
def mayBeReal : Kind → Bool
  | .bool | .int _ | .uint _ | .real _ | .any => true
  | .complex _ | .text _ | .bytes _ => false

/-! ## Kinds of loose values -/

/-- Whole numbers beyond 64 bits are kept as they are. -/
def ofInt (i : Int) : Kind :=
  if -Binary.pow2 63 ≤ i ∧ i < Binary.pow2 63 then .int 64
  else if 0 ≤ i ∧ i < Binary.pow2 64 then .uint 64
  else .any

def ofLeaf : Value → Kind
  | .bool _ => .bool
  | .int i => ofInt i
  | .real _ => .real 64
  | .complex _ _ => .complex 128
  | .text s => .text (max 1 s.length)
  | .null | .list _ | .record _ => .any

/-- The length of text that holds every cell of a kind. -/
def textLength : Kind → Nat
  | .bool => 5
  | .int _ => 21
  | .uint _ => 20
  | .real _ => 32
  | .complex _ => 64
  | .text length | .bytes length => length
  | .any => 0

/-- The smallest kind that holds two kinds of leaves. -/
def join : Kind → Kind → Kind
  | .any, _ | _, .any => .any
  | .text m, k => .text (max m k.textLength)
  | k, .text n => .text (max k.textLength n)
  | .complex b, _ | _, .complex b => .complex b
  | .real b, _ | _, .real b => .real b
  | .bool, k | k, .bool => k
  | k, l => if k = l then k else .real 64

/-- Without leaves there is nothing to keep exactly. -/
def ofLeaves : List Value → Kind
  | [] => .real 64
  | v :: vs => vs.foldl (fun k w => k.join (ofLeaf w)) (ofLeaf v)

end Kind
end OptimalAssignment

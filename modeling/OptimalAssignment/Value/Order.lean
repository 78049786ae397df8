import OptimalAssignment.Value

/-!
# Order of values

Some values come before others: real numbers among each other, texts by their characters, and lists
by their first items that differ.  Between any other two values there is no order.
-/

namespace OptimalAssignment.Value

def isRealNumber : Value → Bool
  | .bool _ | .int _ | .real _ => true
  | _ => false

/-- Whole numbers are compared exactly, also with reals. -/
def intPrecedes : Value → Value → Bool
  | .real x, w =>
      match w.int? with
      | some j => Binary.compareInt? x j == some .lt
      | none => false
  | v, .real y =>
      match v.int? with
      | some i => Binary.compareInt? y i == some .gt
      | none => false
  | v, w =>
      match v.int?, w.int? with
      | some i, some j => i < j
      | _, _ => false

/-- A NaN comes before no number, and none before it. -/
def numberPrecedes? : Value → Value → Option Bool
  | .real x, .real y => some (x < y)
  | v, w => if isRealNumber v && isRealNumber w then some (intPrecedes v w) else none

mutual

def precedes? : Value → Value → Option Bool
  | .text s, .text t => some (s < t)
  | .list xs, .list ys => itemsPrecede? xs ys
  | v, w => numberPrecedes? v w

def itemsPrecede? : List Value → List Value → Option Bool
  | v :: vs, w :: ws => if v.same w then itemsPrecede? vs ws else precedes? v w
  | [], ys => some !ys.isEmpty
  | _ :: _, [] => some false

end

end OptimalAssignment.Value

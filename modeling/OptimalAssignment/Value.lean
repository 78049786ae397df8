import OptimalAssignment.Binary.Real

/-!
# Loosely typed values

The values that callers, settings and documents hand over before anything is known about them.
-/

namespace OptimalAssignment

inductive Value where
  | null
  | bool (b : Bool)
  | int (i : Int)
  | real (x : Float)
  | complex (re im : Float)
  | text (s : String)
  | list (items : List Value)
  | record (fields : List (String × Value))
  deriving Inhabited

namespace Value

/-- Zero, nothing and every empty value are false; a NaN is true. -/
def isTrue : Value → Bool
  | .null => false
  | .bool b => b
  | .int i => i != 0
  | .real x => x != 0.0
  | .complex re im => re != 0.0 || im != 0.0
  | .text s => !s.isEmpty
  | .list items => !items.isEmpty
  | .record fields => !fields.isEmpty

/-- Truth values count as zero and one. -/
def int? : Value → Option Int
  | .bool b => some b.toInt
  | .int i => some i
  | _ => none

/-- Whether a number equals an integer exactly. -/
def equalsInt : Value → Int → Bool
  | .bool b, i => b.toInt == i
  | .int j, i => j == i
  | .real x, i => Binary.compareInt? x i == some .eq
  | .complex re im, i => im == 0.0 && Binary.compareInt? re i == some .eq
  | _, _ => false

def sameNumber : Value → Value → Bool
  | .real x, .real y => x == y
  | .complex re im, .complex re' im' => re == re' && im == im'
  | .real x, .complex re im => im == 0.0 && x == re
  | .complex re im, .real x => im == 0.0 && x == re
  | .bool b, v => equalsInt v b.toInt
  | .int i, v => equalsInt v i
  | v, .bool b => equalsInt v b.toInt
  | v, .int i => equalsInt v i
  | _, _ => false

mutual

/-- Equality of values: numbers by value across their types, records by key. -/
def same : Value → Value → Bool
  | .null, .null => true
  | .text s, .text t => s == t
  | .list xs, .list ys => sameItems xs ys
  | .record xs, .record ys => xs.length == ys.length && sameFields xs ys
  | v, w => sameNumber v w

def sameItems : List Value → List Value → Bool
  | [], [] => true
  | v :: vs, w :: ws => same v w && sameItems vs ws
  | _, _ => false

def sameFields : List (String × Value) → List (String × Value) → Bool
  | [], _ => true
  | (key, v) :: rest, ys =>
      (match ys.lookup key with
        | some w => same v w
        | none => false) && sameFields rest ys

end

end Value
end OptimalAssignment

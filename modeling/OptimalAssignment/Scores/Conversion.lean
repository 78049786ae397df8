import OptimalAssignment.Decimal.Reader
import OptimalAssignment.Scores.Kind
import OptimalAssignment.Value.Display

/-!
# Conversion of cells

A cell as a double, and a loose value as a cell of a given kind.  Nothing counts as NaN, texts are
read as decimals, and a whole number beyond the doubles has no conversion.
-/

namespace OptimalAssignment

open Binary Decimal

inductive ConversionError where
  /-- A text, as messages show it, that is not a number. -/
  | unreadable (shown : String)
  /-- A list in the place of a cell. -/
  | nested
  /-- A value whose type, by its word, has no numbers. -/
  | unsuitable (typeWord : String)
  /-- A real that is not a number, in the place of a whole number. -/
  | undefined
  | outOfRange
  | notAscii (text : String)
  deriving DecidableEq, Repr

namespace ConversionError

def message : ConversionError → String
  | .unreadable shown => s!"could not convert string to float: {shown}"
  | .nested => "setting an array element with a sequence."
  | .unsuitable typeWord => s!"float() argument must be a string or a real number, not '{typeWord}'"
  | .undefined => "cannot convert float NaN to integer"
  | .outOfRange => "int too large to convert to float"
  | .notAscii text => s!"{Text.quote text} has a character beyond ASCII"

end ConversionError

namespace Value

def readReal (shown s : String) : Except ConversionError Float :=
  match looseReal? s with
  | some x => .ok x
  | none => .error (.unreadable shown)

/-- The double nearest to a leaf. -/
def toReal : Value → Except ConversionError Float
  | .null => .ok notANumber
  | .bool b => .ok (if b then 1.0 else 0.0)
  | .int i =>
      match ofInt? i with
      | some x => .ok x
      | none => .error .outOfRange
  | .real x => .ok x
  | .text s => readReal (Text.quote s) s
  | .list _ => .error .nested
  | v => .error (.unsuitable v.typeWord)

end Value

namespace Kind

def isAscii (s : String) : Bool :=
  s.toList.all fun c => c.toNat < 0x80

/-- A byte string is read as a text of ASCII. -/
def readBytes (s : String) : Except ConversionError Float :=
  let shown := s!"np.bytes_({Text.quoteBytes s})"
  if isAscii s then Value.readReal shown s else .error (.unreadable shown)

/-- A cell of a kind as a double: complex numbers lose their imaginary part. -/
def toReal : Kind → Value → Except ConversionError Float
  | .complex _, .complex re _ => .ok re
  | .text _, .text s => Value.readReal s!"np.str_({Text.quote s})" s
  | .bytes _, .text s => readBytes s
  | _, v => v.toReal

/-! ## Cells of a given kind -/

/-- The smallest integer of a width, and the first one above the largest. -/
def bounds (signed : Bool) (bits : Nat) : Int × Int :=
  if signed then (-pow2 (bits - 1), pow2 (bits - 1)) else (0, pow2 bits)

/-- A whole number of a width has to lie within its bounds. -/
def fit (signed : Bool) (bits : Nat) (i : Int) : Except ConversionError Value :=
  let (low, high) := bounds signed bits
  if low ≤ i ∧ i < high then .ok (.int i) else .error .outOfRange

/-- A whole number as it is, a text read as one, and a real without its fraction. -/
def whole (signed : Bool) (bits : Nat) : Value → Except ConversionError Value
  | .bool b => .ok (.int b.toInt)
  | .int i => fit signed bits i
  | .real x =>
      match truncate? x with
      | some i => fit signed bits i
      | none => .error (if x.isNaN then .undefined else .outOfRange)
  | .text s =>
      match looseInt? s with
      | some i => fit signed bits i
      | none => .error (.unreadable (Text.quote s))
  | .list _ => .error .nested
  | v => .error (.unsuitable v.typeWord)

def narrowTo (bits : Nat) (x : Float) : Float :=
  if bits ≤ 16 then narrow half x
  else if bits ≤ 32 then narrow single x
  else x

/-- The first characters, without the ending `U+0000`s. -/
def clip (length : Nat) (s : String) : String :=
  let kept := s.toList.take length
  String.ofList (kept.reverse.dropWhile (· == '\x00')).reverse

/-- Texts without a length are as long as the longest of the leaves. -/
def fitted (leaves : List Value) : Kind → Kind
  | .text 0 => .text (longest leaves)
  | .bytes 0 => .bytes (longest leaves)
  | k => k
where
  longest (leaves : List Value) : Nat :=
    leaves.foldl (fun n v => max n v.spoken.length) 1

/-- A loose value as a cell. -/
def ofValue : Kind → Value → Except ConversionError Value
  | .any, v => .ok v
  | .bool, v => .ok (.bool v.isTrue)
  | .int bits, v => whole true bits v
  | .uint bits, v => whole false bits v
  | .real bits, v => v.toReal.map fun x => .real (narrowTo bits x)
  | .complex bits, .complex re im =>
      .ok (.complex (narrowTo (bits / 2) re) (narrowTo (bits / 2) im))
  | .complex bits, v => v.toReal.map fun x => .complex (narrowTo (bits / 2) x) 0.0
  | .text length, v => .ok (.text (clip length v.spoken))
  | .bytes length, v =>
      if isAscii v.spoken then .ok (.text (clip length v.spoken))
      else .error (.notAscii v.spoken)

end Kind
end OptimalAssignment

import OptimalAssignment.Scores.ArrayFile.Header

/-!
# Cells of array files

A cell as a double, from the bytes it is stored in.
-/

namespace OptimalAssignment.ArrayFile

open Binary

/-- The real with the bits of a word. -/
def realOfWord (bits word : Nat) : Float :=
  match bits with
  | 16 => (decodeHalf word).toFloat
  | 32 => (decodeSingle word).toFloat
  | 64 => Float.ofBits (UInt64.ofNat word)
  | _ => (decodeExtended word).toFloat

def realOfInt (i : Int) : Float := (ofInt? i).getD (infinity (i < 0))

/-- The least count of time units is no number. -/
def realOfMoment (word : Nat) : Float :=
  let i := Int.bmod word (pow2 64)
  if i = -pow2 63 then notANumber else realOfInt i

/-- A row of pieces of a given size. -/
def pieces {α : Type} (size count : Nat) (xs : List α) : List (List α) :=
  match count with
  | 0 => []
  | count + 1 => xs.take size :: pieces size count (xs.drop size)

/-- Texts end before the zeros at their end. -/
def withoutZeros (codes : List Nat) : List Nat :=
  (codes.reverse.dropWhile (· == 0)).reverse

/-- A code point that is no character is none of a number either. -/
def charOf (n : Nat) : Char :=
  if n.isValidChar then Char.ofNat n else '\ufffd'

def realOfText (codes : List Nat) : Except ConversionError Float :=
  Value.readReal s!"np.str_({Text.quoteCodes codes})" (String.ofList (codes.map charOf))

def realOfBytes (codes : List Nat) : Except ConversionError Float :=
  Kind.readBytes (String.ofList (codes.map Char.ofNat))

def word (f : CellFormat) (bytes : List UInt8) : Nat :=
  littleEndian (if f.bigEndian then bytes.reverse else bytes)

/-- A cell as a double: complex numbers lose their imaginary part. -/
def realOfCell (f : CellFormat) (bytes : List UInt8) : Except ConversionError Float :=
  match f.type with
  | .plain .bool => .ok (if word f bytes = 0 then 0.0 else 1.0)
  | .plain (.int bits) => .ok (realOfInt (Int.bmod (word f bytes) (pow2 bits)))
  | .plain (.uint _) => .ok (realOfInt (word f bytes))
  | .plain (.real bits) => .ok (realOfWord bits (word f bytes))
  | .plain (.complex bits) => .ok (realOfWord (bits / 2) (word f (bytes.take (bits / 16))))
  | .plain (.text length) => realOfText (withoutZeros ((pieces 4 length bytes).map (word f)))
  | .plain (.bytes _) => realOfBytes (withoutZeros (bytes.map UInt8.toNat))
  | .moment => .ok (realOfMoment (word f bytes))
  | .plain .any | .untyped _ => .error .nested

namespace Item

/-- The format of the only cell of an item, and the number of bytes in front of it. -/
def onlyCell? : Item → Option (CellFormat × Nat)
  | .cell f => some (f, 0)
  | .block base _ => base.onlyCell?
  | .fields [(offset, item)] _ => item.onlyCell?.map fun (f, more) => (f, offset + more)
  | .fields _ _ => none

end Item
end OptimalAssignment.ArrayFile

import OptimalAssignment.Scores.ArrayFile.Item
import OptimalAssignment.Scores.ArrayFile.LongMark
import OptimalAssignment.Scores.Conversion
import OptimalAssignment.Text.Utf8

/-!
# Failures of array files

Most faults of an array file are told in a message.  A few stop the reading without a word.
-/

namespace OptimalAssignment.ArrayFile

/-- The parts of a file that are read one after the other. -/
inductive Part where
  | mark
  | headerLength
  | header
  deriving DecidableEq, Repr

def Part.words : Part → String
  | .mark => "magic string"
  | .headerLength => "array header length"
  | .header => "array header"

/-- What a message tells. -/
inductive Complaint where
  /-- The file does not start with the mark. -/
  | foreign
  | cutOff (part : Part) (expected found : Nat)
  | version (major minor : Nat)
  | longHeader (length : Nat)
  | encoding (why : Text.Utf8.DecodeError)
  | nullCharacter
  | overlap (start stop : LongMark.Place)
  | malformed (header : List Char)
  | notLiteral
  | spread
  /-- A whole number with too many digits for a message. -/
  | longNumber
  | notRecord (header : Literal)
  | badKeys (found : List Literal)
  | badShape (given : Literal)
  | badOrder (given : Literal)
  | badKind (given : Literal)
  | item (why : Item.Fault)
  /-- Cells that may be anything. -/
  | anyCells
  | negativeCount
  | tooLarge
  | cutOffCells (shape : Literal) (expected : Int) (found : Nat)
  | manyDimensions (found : Nat)
  | longDimension
  | twoUnknown
  | mismatch (count : Nat) (shape : List Int)
  | cell (why : ConversionError)

/-- What stops the reading without a word. -/
inductive Stop where
  | noData
  /-- A file that holds other files. -/
  | archive
  | unfinishedHeader
  | unevenHeader
  | badKey
  | keyOrder
  | numberOutOfRange
  | missingShape
  | badShapeText
  | dimensionType
  /-- Items that are not made of one cell. -/
  | manyFields
  | noMemory
  deriving DecidableEq, Repr

inductive Failure where
  | told (why : Complaint)
  | silent (why : Stop)

def complain {α : Type} (why : Complaint) : Except Failure α := .error (.told why)

def stop {α : Type} (why : Stop) : Except Failure α := .error (.silent why)

/-! ## Messages -/

/-- A shape without its leading unknown lengths; any other unknown length is a new axis. -/
def shapeText (shape : List Int) : String :=
  let kept := shape.dropWhile (· < 0)
  let words := kept.map fun n => if n < 0 then "newaxis" else toString n
  if shape.length = 1 ∧ kept.length = 1 then "(" ++ String.join words ++ ",)"
  else "(" ++ ",".intercalate words ++ ")"

def surrogatesMessage (first last code : Nat) : String :=
  let which := if first = last then
      s!"character '{String.ofList (Text.escapeCodePoint code)}' in position {first}"
    else s!"characters in position {first}-{last}"
  s!"'utf-8' codec can't encode {which}: surrogates not allowed"

def timeMessage : TimeUnit.Fault → String
  | .unknown => "Invalid datetime unit in metadata"
  | .generic => "Can't use 'den' divisor with generic units"
  | .uneven divisor text =>
      s!"divisor ({divisor}) is not a multiple of a lower-unit in datetime metadata \"{text}\""

def sequenceMessage : Sequence.Fault → String
  | .unrecognized number text => s!"format number {number} of \"{text}\" is not recognized"
  | .mixedOrder first second =>
      s!"inconsistent byte-order specification {first} and {second}"
  | .badShape => "invalid syntax"

def inPair (text : String) : String := "invalid shape in fixed-type tuple" ++ text

def itemMessage : Item.Fault → String
  | .unknown | .missing => "data type not understood"
  | .surrogates first last code => surrogatesMessage first last code
  | .time why => timeMessage why
  | .sequence why => sequenceMessage why
  | .shape => inPair "."
  | .negativeLength => inPair ": dimension smaller than zero."
  | .longLength => inPair ": dimension does not fit into a C int."
  | .largeSize => inPair ": dtype size in bytes must fit into a C int."
  | .itemSize => "invalid itemsize in generic type tuple"
  | .sizeMismatch => "mismatch in size of old and new data-descriptor"
  | .tooFew expected found => s!"not enough values to unpack (expected {expected}, got {found})"
  | .tooMany expected => s!"too many values to unpack (expected {expected})"
  | .nameType => "field names must be strings"
  | .nameTaken => "name already used as a name or title"
  | .titleTaken => "title already used as a name or title."

namespace Complaint

def message : Complaint → String
  | .foreign =>
      "This file contains pickled (object) data. If you trust the file you can load it unsafely " ++
        "using the \x60allow_pickle=\x60 keyword argument or \x60pickle.load()\x60."
  | .cutOff part expected found =>
      s!"EOF: reading {part.words}, expected {expected} bytes got {found}"
  | .version major minor =>
      s!"we only support format version (1,0), (2,0), and (3,0), not ({major}, {minor})"
  | .longHeader length =>
      s!"Header info length ({length}) is large and may not be safe to load securely.\n" ++
        "To allow loading, adjust \x60max_header_size\x60 or fully trust the \x60.npy\x60 file " ++
        "using \x60allow_pickle=True\x60.\nFor safety against large resource use or crashes, " ++
        "sandboxing may be necessary."
  | .encoding why => why.message
  | .nullCharacter => "source code string cannot contain null bytes"
  | .overlap start stop =>
      s!"start ({start.row},{start.col}) precedes previous end ({stop.row},{stop.col})"
  | .malformed header => s!"Cannot parse header: {Text.quote (String.ofList header)}"
  | .notLiteral => "malformed node or string"
  | .spread => "malformed node or string: None"
  | .longNumber =>
      s!"Exceeds the limit ({Decimal.maxDigits} digits) for integer string conversion"
  | .notRecord header => s!"Header is not a dictionary: {header.display}"
  | .badKeys found => s!"Header does not contain the correct keys: {(Literal.list found).display}"
  | .badShape given => s!"shape is not valid: {given.display}"
  | .badOrder given => s!"fortran_order is not a valid bool: {given.display}"
  | .badKind given => s!"descr is not a valid dtype descriptor: {given.display}"
  | .item why => itemMessage why
  | .anyCells => "Object arrays cannot be loaded when allow_pickle=False"
  | .negativeCount => "negative dimensions are not allowed"
  | .tooLarge =>
      "array is too big; \x60arr.size * arr.dtype.itemsize\x60 is larger than the maximum " ++
        "possible size."
  | .cutOffCells shape expected found =>
      s!"Failed to read all data for array. Expected {shape.display} = {expected} elements, " ++
        s!"could only read {found} elements. (file seems not fully written?)"
  | .manyDimensions found =>
      s!"maximum supported dimension for an ndarray is currently {Nesting.depthLimit}, " ++
        s!"found {found}"
  | .longDimension => "Maximum allowed dimension exceeded"
  | .twoUnknown => "can only specify one unknown dimension"
  | .mismatch count shape => s!"cannot reshape array of size {count} into shape {shapeText shape}"
  | .cell why => why.message

end Complaint
end OptimalAssignment.ArrayFile

import OptimalAssignment.RunSort
import OptimalAssignment.Scores.ArrayFile.Failure

/-!
# Headers of array files

An array file starts with a mark, a version and a header: a literal that describes the items, their
order and the shape.
-/

namespace OptimalAssignment.ArrayFile

structure Header where
  item : Item
  /-- Whether the first index varies fastest. -/
  columnsFirst : Bool
  /-- Whole numbers and truth values. -/
  shape : List Literal

def mark : List UInt8 := [0x93, 0x4e, 0x55, 0x4d, 0x50, 0x59]

/-- The marks of files that hold other files, or none. -/
def archiveMarks : List (List UInt8) := [[0x50, 0x4b, 3, 4], [0x50, 0x4b, 5, 6]]

/-- The natural number with these bytes, least significant first. -/
def littleEndian : List UInt8 → Nat
  | [] => 0
  | b :: bs => b.toNat + 256 * littleEndian bs

/-- The next bytes and the rest. -/
def take (part : Part) (size : Nat) (bytes : List UInt8) :
    Except Failure (List UInt8 × List UInt8) :=
  if size ≤ bytes.length then .ok (bytes.splitAt size)
  else complain (.cutOff part size bytes.length)

/-- The number of bytes of the header's length. -/
def lengthSize (major minor : Nat) : Except Failure Nat :=
  match major, minor with
  | 1, 0 => .ok 2
  | 2, 0 | 3, 0 => .ok 4
  | _, _ => complain (.version major minor)

/-- The first two versions have one byte for each character. -/
def headerText (major : Nat) (bytes : List UInt8) : Except Failure (List Char) :=
  if major < 3 then .ok (bytes.map fun b => Char.ofNat b.toNat)
  else (Text.Utf8.decode bytes).mapError fun why => .told (.encoding why)

def maxHeaderLength : Nat := 10000

/-! ## The literal -/

def valueFailure (header : List Char) : Expression.Fault → Failure
  | .malformed => .told (.malformed header)
  | .nullCharacter => .told .nullCharacter
  | .notLiteral => .told .notLiteral
  | .spread => .told .spread
  | .badKey => .silent .badKey
  | .outOfRange => .silent .numberOutOfRange

def markFailure : LongMark.Fault → Failure
  | .unfinished => .silent .unfinishedHeader
  | .unevenIndent => .silent .unevenHeader
  | .overlap start stop => .told (.overlap start stop)

/-- Whole numbers may have long marks in the first two versions. -/
def readLiteral (major : Nat) (header : List Char) : Except Failure Literal :=
  match Literal.read header with
  | .ok v => .ok v
  | .error .malformed =>
      if major < 3 then do
        let plain ← (LongMark.drop header).mapError markFailure
        (Literal.read plain).mapError (valueFailure plain)
      else complain (.malformed header)
  | .error why => .error (valueFailure header why)

/-- A complaint about a literal that can be shown. -/
def complainOf {α : Type} (v : Literal) (why : Literal → Complaint) : Except Failure α :=
  complain (if v.isShort then why v else .longNumber)

/-! ## The entries -/

def kindKey : Literal := .ofString "descr"
def orderKey : Literal := .ofString "fortran_order"
def shapeKey : Literal := .ofString "shape"

def field? (entries : List (Literal × Literal)) (key : Literal) : Option Literal :=
  (entries.find? fun e => key.same e.1).map Prod.snd

def compareKeys (v w : Literal) : Except Failure Ordering :=
  match v.precedes? w, w.precedes? v with
  | some true, _ => .ok .lt
  | some false, some true => .ok .gt
  | some false, some false => .ok .eq
  | _, _ => stop .keyOrder

def wrongKeys {α : Type} (entries : List (Literal × Literal)) : Except Failure α := do
  let keys ← RunSort.sort compareKeys (entries.map Prod.fst)
  complainOf (.list keys) fun _ => .badKeys keys

def isSize : Literal → Bool
  | .int _ | .bool _ => true
  | _ => false

def readShape (given : Literal) : Except Failure (List Literal) :=
  match given with
  | .tuple items => if items.all isSize then .ok items else complainOf given .badShape
  | _ => complainOf given .badShape

def readOrder (given : Literal) : Except Failure Bool :=
  match given with
  | .bool b => .ok b
  | _ => complainOf given .badOrder

def readItem (given : Literal) : Except Failure Item :=
  match Item.ofLiteral given with
  | .ok item => .ok item
  | .error .unknown => complainOf given .badKind
  | .error .missing => stop .missingShape
  | .error (.sequence .badShape) => stop .badShapeText
  | .error why => complain (.item why)

/-- The keys are looked at first, then the shape, the order and the description of the items. -/
def Header.ofEntries (entries : List (Literal × Literal)) : Except Failure Header :=
  match field? entries kindKey, field? entries orderKey, field? entries shapeKey with
  | some kind, some order, some shape =>
      if entries.length = 3 then do
        let shape ← readShape shape
        let order ← readOrder order
        let item ← readItem kind
        return ⟨item, order, shape⟩
      else wrongKeys entries
  | _, _, _ => wrongKeys entries

def Header.ofText (major : Nat) (cs : List Char) : Except Failure Header := do
  if maxHeaderLength < cs.length then complain (.longHeader cs.length)
  match ← readLiteral major cs with
  | .record entries => Header.ofEntries entries
  | other => complainOf other .notRecord

/-- The header, and the bytes of the items. -/
def Header.read (bytes : List UInt8) : Except Failure (Header × List UInt8) := do
  if bytes.isEmpty then stop .noData
  if archiveMarks.any fun m => m.isPrefixOf bytes then stop .archive
  if !mark.isPrefixOf bytes then complain .foreign
  let (start, bytes) ← take .mark (mark.length + 2) bytes
  let version := (start.drop mark.length).map UInt8.toNat
  let major := version.headD 0
  let size ← lengthSize major (version.getLastD 0)
  let (length, bytes) ← take .headerLength size bytes
  let (header, bytes) ← take .header (littleEndian length) bytes
  let text ← headerText major header
  return (← Header.ofText major text, bytes)

end OptimalAssignment.ArrayFile

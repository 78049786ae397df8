import OptimalAssignment.Files.View
import OptimalAssignment.Log
import OptimalAssignment.Scores.ArrayFile
import OptimalAssignment.Scores.Columns

/-!
# Files of scores

A file whose name ends in `.npy` is an array file, any other a text with columns, which may be
packed.  The columns of a `.csv` file stand between commas if no delimiter is given.
-/

namespace OptimalAssignment

open Files

/-- Why the bytes of a file are no numbers. -/
inductive Unreadable where
  | encoding (why : Text.Utf8.DecodeError)
  | columns (why : Columns.Failure)
  | array (why : ArrayFile.Complaint)

def Unreadable.message : Unreadable → String
  | .encoding why => why.message
  | .columns why => why.message
  | .array why => why.message

inductive LoadError where
  | missing (path : Path)
  | unreadable (path : Path) (why : Unreadable)
  | folder
  /-- A name longer than names can be. -/
  | tooLong
  /-- A delimiter that cannot stand between columns. -/
  | badDelimiter
  /-- An array file that is not read to its end. -/
  | stopped (why : ArrayFile.Stop)

namespace LoadError

def missingMessage (path : Path) : String :=
  s!"Score matrix file not found: {path.text}"

def unreadableMessage (path : Path) (why : Unreadable) : String :=
  s!"Score matrix file {path.text} could not be read as numbers: {why.message}"

end LoadError

/-- Why no scores are read. -/
inductive ReadError where
  | load (why : LoadError)
  /-- A packed file is not unpacked. -/
  | damaged (why : Damage)

namespace Scores

/-- How the bytes of a file become numbers. -/
inductive FileKind where
  | array
  | columns (packing : Option Packing) (delimiter : Option String)
  deriving DecidableEq, Repr

def FileKind.of (path : Path) (delimiter : Option String) : FileKind :=
  if path.suffix = ".npy" then .array
  else if path.suffix = ".csv" then .columns (Packing.of? path) (some (delimiter.getD ","))
  else .columns (Packing.of? path) delimiter

/-- A delimiter is a single character; nothing if the text is none. -/
def delimiter? : Option String → Option (Option Char)
  | none => some none
  | some s =>
      match s.toList with
      | [c] => if Columns.isDelimiter c then some (some c) else none
      | _ => none

def unreadable {α : Type} (path : Path) (why : Unreadable) : Logged LoadError α :=
  .refuse (LoadError.unreadableMessage path why) (.unreadable path why)

def readArray (path : Path) (bytes : List UInt8) : Logged LoadError (Tensor Float) :=
  match ArrayFile.read bytes with
  | .ok t => pure t
  | .error (.told why) => unreadable path (.array why)
  | .error (.silent why) => .fail (.stopped why)

def readColumns (path : Path) (delimiter : Option String) (bytes : List UInt8) :
    Logged LoadError (Tensor Float) :=
  match delimiter? delimiter with
  | none => .fail .badDelimiter
  | some d =>
      match Text.Utf8.decodeInput bytes with
      | .error why => unreadable path (.encoding why)
      | .ok cs =>
          match Columns.read d cs with
          | .ok t => pure t
          | .error why => unreadable path (.columns why)

def readFile (path : Path) (kind : FileKind) (bytes : List UInt8) :
    Logged LoadError (Tensor Float) :=
  match kind with
  | .array => readArray path bytes
  | .columns _ delimiter => readColumns path delimiter bytes

/-- The scores of the file at a path, for what stands there once it is unpacked. -/
def load (path : Path) (entry : Entry) (delimiter : Option String) :
    Logged LoadError (Tensor Float) :=
  match entry with
  | .file bytes => do
      let t ← readFile path (.of path delimiter) bytes
      let shape := Tensor.shapeText t.shape
      Logged.write (.debug s!"Loaded score matrix of shape {shape} from {path.text}.")
      return t
  | .folder => .fail .folder
  | .overlong => .fail .tooLong
  | .vacant | .detached | .belowFile | .unnameable =>
      .refuse (LoadError.missingMessage path) (.missing path)

/-- What stands at a path, unpacked.  A bad delimiter is noticed before anything is unpacked, and an
array file is never packed. -/
def unpacked (view : View) (path : Path) (delimiter : Option String) : Except Damage Entry :=
  match view.entry path, FileKind.of path delimiter with
  | .file bytes, .columns packing delimiter =>
      if (delimiter? delimiter).isNone then .ok (.file bytes)
      else (view.unpack packing bytes).map .file
  | entry, _ => .ok entry

/-- The scores of the file at a path. -/
def read (view : View) (path : Path) (delimiter : Option String) :
    Logged ReadError (Tensor Float) := do
  let entry ← Logged.ofExcept ((unpacked view path delimiter).mapError .damaged)
  (load path entry delimiter).mapError .load

end Scores
end OptimalAssignment

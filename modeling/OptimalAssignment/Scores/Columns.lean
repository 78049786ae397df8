import OptimalAssignment.Decimal.Reader
import OptimalAssignment.Tensor
import OptimalAssignment.Text.Quoted

/-!
# Columns of numbers

A text with a row of numbers on each line.  A comment runs from `#` to the end of its line.  Without
a delimiter the columns stand between blanks; with one, every delimiter ends a column, also an empty
one.  Lines without a column are skipped, and all other lines have as many columns as the first.
-/

namespace OptimalAssignment.Columns

open Text

inductive Failure where
  /-- A row, counted from zero, and a column, counted from one, that hold no number. -/
  | notNumber (field : List Char) (row col : Nat)
  /-- A row, counted from one, that differs from the first in its number of columns. -/
  | uneven (first found row : Nat)
  deriving DecidableEq, Repr

/-- Of a long field only the start is shown. -/
def shown (field : List Char) : String :=
  String.ofList ((quoteWith isPrintable field).take 100)

def Failure.message : Failure → String
  | .notNumber field row col =>
      s!"could not convert string {shown field} to float64 at row {row}, column {col}."
  | .uneven first found row =>
      s!"the number of columns changed from {first} to {found} at row {row}; " ++
        "use \x60usecols\x60 to select a subset and avoid this error"

/-! ## Fields -/

/-- Every end of a line becomes one `U+000A`. -/
def unifyLineEnds : List Char → List Char
  | '\r' :: '\n' :: cs => '\n' :: unifyLineEnds cs
  | c :: cs => (if c == '\r' then '\n' else c) :: unifyLineEnds cs
  | [] => []

def lines (cs : List Char) : List (List Char) :=
  (unifyLineEnds cs).splitOn '\n'

def isCommentMark (c : Char) : Bool :=
  c == '#'

def withoutComment (line : List Char) : List Char :=
  line.takeWhile fun c => !isCommentMark c

/-- Whether a character can stand between columns. -/
def isDelimiter (c : Char) : Bool :=
  !isCommentMark c && c != '\n' && c != '\r'

/-- The columns of a line; a delimited line of one empty column has none. -/
def fields (delimiter : Option Char) (line : List Char) : List (List Char) :=
  match delimiter with
  | none => (line.splitOnP isBlank).filter fun field => !field.isEmpty
  | some d => if line.isEmpty then [] else line.splitOn d

/-- The lines that have columns. -/
def rows (delimiter : Option Char) (cs : List Char) : List (List (List Char)) :=
  ((lines cs).map fun line => fields delimiter (withoutComment line)).filter fun row => !row.isEmpty

/-! ## Numbers -/

def readField (row col : Nat) (field : List Char) : Except Failure Float :=
  match Decimal.real? (trim isBlank field) with
  | some x => .ok x
  | none => .error (.notNumber field row col)

/-- The number of columns is looked at before the numbers. -/
def readRow (width row : Nat) (fields : List (List Char)) : Except Failure (List Float) :=
  if fields.length = width then
    (fields.zipIdx 1).mapM fun (field, col) => readField row col field
  else .error (.uneven width fields.length (row + 1))

def readRows (rows : List (List (List Char))) : Except Failure (List (List Float)) :=
  let width := (rows.headD []).length
  rows.zipIdx.mapM fun (fields, row) => readRow width row fields

/-- A table of two dimensions; without any row there is one column. -/
def read (delimiter : Option Char) (cs : List Char) : Except Failure (Tensor Float) := do
  let rows := rows delimiter cs
  let width := max 1 (rows.headD []).length
  return ⟨[rows.length, width], (← readRows rows).flatten.toArray⟩

end OptimalAssignment.Columns

import OptimalAssignment.Decimal.Layout
import OptimalAssignment.Text.Quoted
import OptimalAssignment.Value

/-!
# How values are shown

`display` quotes texts, so that every value can be told from its neighbours in a message; `spoken`
writes a text as it is.
-/

namespace OptimalAssignment.Value

open Decimal Text

/-- A number of the imaginary axis has a sign of its own. -/
def imaginary (im : Float) : String :=
  let s := bare.write im
  (if s.startsWith "-" then s else "+" ++ s) ++ "j"

def displayComplex (re im : Float) : String :=
  if re.toBits == 0 then bare.write im ++ "j"
  else "(" ++ bare.write re ++ imaginary im ++ ")"

mutual

def display : Value → String
  | .null => "None"
  | .bool b => if b then "True" else "False"
  | .int i => toString i
  | .real x => plain.write x
  | .complex re im => displayComplex re im
  | .text s => quote s
  | .list items => "[" ++ ", ".intercalate (displayItems items) ++ "]"
  | .record fields => "\x7b" ++ ", ".intercalate (displayFields fields) ++ "\x7d"

def displayItems : List Value → List String
  | [] => []
  | v :: rest => display v :: displayItems rest

def displayFields : List (String × Value) → List String
  | [] => []
  | (key, v) :: rest => (quote key ++ ": " ++ display v) :: displayFields rest

end

def spoken : Value → String
  | .text s => s
  | v => display v

/-- The word for a value's type in messages. -/
def typeWord : Value → String
  | .null => "NoneType"
  | .bool _ => "bool"
  | .int _ => "int"
  | .real _ => "float"
  | .complex _ _ => "complex"
  | .text _ => "str"
  | .list _ => "list"
  | .record _ => "dict"

end OptimalAssignment.Value

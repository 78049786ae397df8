import OptimalAssignment.Proofs.Yaml.Lines
import OptimalAssignment.Value

/-!
# Tokens of the lines of a block mapping

A line with a key and a word gives the tokens of an entry, whatever stands before it and on
whichever line it is.  The first of the lines opens the mapping at its column.
-/

namespace OptimalAssignment.Yaml

/-! ## Entries -/

/-- A key and a word on one line, and the value that the word stands for. -/
structure Entry where
  key : List Char
  word : Word
  value : Value

namespace Entry

structure Legible (e : Entry) : Prop where
  key : IsKey e.key
  word : e.word.Legible

def line (indent : Nat) (e : Entry) : List Char :=
  List.replicate indent ' ' ++ (e.key ++ ':' :: ' ' :: (e.word.chars ++ ['\n']))

end Entry

def lines (indent : Nat) (es : List Entry) : List Char :=
  es.flatMap (Entry.line indent)

namespace Lexer

/-! ## Steps -/

variable {s t : Source} {done : List Token} {columns : List Nat} {candidate : Option Candidate}
  {allowed allowed' : Bool}

/-- What the first key at a column puts in front of itself. -/
def opening (col : Nat) (columns : List Nat) : List Token :=
  if columns.head? = some col then [] else [.blockMapping]

def opened (col : Nat) (columns : List Nat) : List Nat :=
  if columns.head? = some col then columns else col :: columns

end Lexer
end OptimalAssignment.Yaml

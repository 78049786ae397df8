import OptimalAssignment.Decimal.Layout
import OptimalAssignment.Text.Quoted
import OptimalAssignment.Value

/-!
# Indented JSON

One item per line, each level two blanks further in; an empty list or record stays on its line.
Texts are written in ASCII.
-/

namespace OptimalAssignment.Json

open Decimal Text

/-- Numbers in documents. -/
def number : Decimal.Layout :=
  { plain with nan := "NaN", infinite := "Infinity" }

def unit (n : Nat) : List Char :=
  '\\' :: 'u' :: hexDigits 4 n

/-- A code point in one unit, or in two if it needs more than sixteen bits. -/
def units (n : Nat) : List Char :=
  if n < 0x10000 then unit n
  else unit (0xd800 + (n - 0x10000) / 0x400) ++ unit (0xdc00 + (n - 0x10000) % 0x400)

def escape (c : Char) : List Char :=
  if c == '"' || c == '\\' then ['\\', c]
  else if c == '\n' then ['\\', 'n']
  else if c == '\r' then ['\\', 'r']
  else if c == '\t' then ['\\', 't']
  else if c == '\x08' then ['\\', 'b']
  else if c == '\x0c' then ['\\', 'f']
  else if 0x20 ≤ c.toNat && c.toNat < 0x7f then [c]
  else units c.toNat

def quote (s : String) : List Char :=
  '"' :: s.toList.flatMap escape ++ ['"']

def newline (depth : Nat) : List Char :=
  '\n' :: List.replicate (2 * depth) ' '

/-- Items between brackets, each on a line of its own. -/
def enclose (opening closing : Char) (depth : Nat) (items : List (List Char)) : List Char :=
  match items with
  | [] => [opening, closing]
  | _ =>
      opening :: (newline (depth + 1) ++ (',' :: newline (depth + 1)).intercalate items) ++
        newline depth ++ [closing]

mutual

/-- A value that starts at a level; complex numbers have no form. -/
def layout (depth : Nat) : Value → List Char
  | .null | .complex _ _ => ['n', 'u', 'l', 'l']
  | .bool b => (if b then "true" else "false").toList
  | .int i => (toString i).toList
  | .real x => (number.write x).toList
  | .text s => quote s
  | .list vs => enclose '[' ']' depth (layoutItems (depth + 1) vs)
  | .record fields => enclose '\x7b' '\x7d' depth (layoutFields (depth + 1) fields)

def layoutItems (depth : Nat) : List Value → List (List Char)
  | [] => []
  | v :: vs => layout depth v :: layoutItems depth vs

def layoutFields (depth : Nat) : List (String × Value) → List (List Char)
  | [] => []
  | (key, v) :: rest =>
      (quote key ++ ':' :: ' ' :: layout depth v) :: layoutFields depth rest

end

def write (v : Value) : String :=
  String.ofList (layout 0 v)

end OptimalAssignment.Json

import OptimalAssignment.Scores.ArrayFile.Literal.Expression
import OptimalAssignment.Scores.CellFormat

/-!
# Sequences of names

Names with commas between them stand for fields one after the other.  In front of a name may stand a
shape, and in front of both a mark of byte order.
-/

namespace OptimalAssignment.ArrayFile.Sequence

open CellFormat (isOrderMark)

inductive Fault where
  | unrecognized (number : Nat) (text : String)
  | mixedOrder (first second : Char)
  /-- A shape that is no literal. -/
  | badShape
  deriving DecidableEq, Repr

/-- Whether there is a comma outside of square brackets. -/
def hasComma (depth : Int) : List Char → Bool
  | [] => false
  | c :: cs =>
      if c == ',' then depth == 0 || hasComma depth cs
      else if c == '[' then hasComma (depth + 1) cs
      else if c == ']' then hasComma (depth - 1) cs
      else hasComma depth cs

def startsWithShape (cs : List Char) : Bool :=
  cs.head?.any Char.isDigit

/-- A sequence starts with a number or with empty brackets, or it has a comma that is not its first
character. -/
def isSequence (cs : List Char) : Bool :=
  let unmarked := if cs.head?.any isOrderMark then cs.drop 1 else cs
  startsWithShape cs || startsWithShape unmarked || cs.take 2 == ['(', ')'] ||
    (unmarked.take 2 == ['(', ')'] && 3 < cs.length) || hasComma 0 (cs.drop 1)

/-! ## Parts -/

def splitMark (cs : List Char) : Option Char × List Char :=
  match cs with
  | c :: rest => if isOrderMark c then (some c, rest) else (none, cs)
  | [] => (none, [])

/-- The characters of a class at the front, and the rest. -/
def split (p : Char → Bool) (cs : List Char) : List Char × List Char :=
  (cs.takeWhile p, cs.dropWhile p)

def one (c : Char) (cs : List Char) : List Char × List Char :=
  if cs.head? == some c then ([c], cs.drop 1) else ([], cs)

def isShapeChar (c : Char) : Bool := c == ' ' || c == ',' || c.isDigit

/-- Numbers, blanks and commas, perhaps in brackets. -/
def splitShape (cs : List Char) : List Char × List Char :=
  let (a, cs) := split (· == ' ') cs
  let (b, cs) := one '(' cs
  let (c, cs) := split isShapeChar cs
  let (d, cs) := one ')' cs
  let (e, cs) := split (· == ' ') cs
  (a ++ b ++ c ++ d ++ e, cs)

/-- What may stand in square brackets behind a name. -/
def isUnitChar (c : Char) : Bool := c.isAlphanum || c == ',' || c == '.'

def splitUnit (cs : List Char) : List Char × List Char :=
  match cs with
  | '[' :: rest =>
      let (inner, rest) := split isUnitChar rest
      match rest with
      | ']' :: rest => ('[' :: inner ++ [']'], rest)
      | _ => ([], cs)
  | _ => ([], cs)

def splitName (cs : List Char) : List Char × List Char :=
  let (word, rest) := split (fun c => c.isAlphanum || c == '.' || c == '?') cs
  let (unit, rest) := splitUnit rest
  (word ++ unit, rest)

/-- The least significant byte first is the order that needs no mark. -/
def plainMark (c : Char) : Char := if c == '=' then '<' else c

/-- The mark that two marks come to. -/
def joinMarks (first second : Option Char) : Except Fault (List Char) :=
  let kept (c : Char) := if c == '>' then ['>'] else []
  match first, second with
  | none, none => .ok []
  | some c, none | none, some c => .ok (kept c)
  | some c, some d =>
      if plainMark c = plainMark d then .ok (kept c)
      else .error (.mixedOrder (plainMark c) (plainMark d))

/-- The rest behind a part: behind a comma, or nothing but blanks; `true` stands for a comma. -/
def afterPart? (cs : List Char) : Option (List Char × Bool) :=
  let rest := cs.dropWhile Text.isBlank
  match rest with
  | [] => some ([], false)
  | ',' :: rest => some (rest.dropWhile Text.isBlank, true)
  | _ => none

/-- A name, and the shape in front of it. -/
abbrev Part := List Char × Option Literal

def readShape (text : List Char) : Except Fault (Option Literal) :=
  if text.isEmpty then .ok none
  else
    match Literal.read text with
    | .ok shape => .ok (some shape)
    | .error _ => .error .badShape

/-- The parts of a text, and whether there is a comma.  Every step takes at least one character. -/
def partsOf (text : String) : Nat → Nat → List Char → Except Fault (List Part × Bool)
  | 0, _, _ => .ok ([], false)
  | _, _, [] => .ok ([], false)
  | steps + 1, number, cs => do
      let (first, cs) := splitMark cs
      let (shapeText, cs) := splitShape cs
      let (second, cs) := splitMark cs
      let (name, cs) := splitName cs
      match afterPart? cs with
      | none => .error (.unrecognized number text)
      | some (rest, comma) =>
          let mark ← joinMarks first second
          let shape ← readShape shapeText
          let (parts, many) ← partsOf text steps (number + 1) rest
          return ((mark ++ name, shape) :: parts, comma || many)

def read (cs : List Char) : Except Fault (List Part × Bool) :=
  partsOf (String.ofList cs) (cs.length + 1) 1 cs

end OptimalAssignment.ArrayFile.Sequence

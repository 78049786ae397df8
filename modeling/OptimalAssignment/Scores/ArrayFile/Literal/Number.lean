import OptimalAssignment.Decimal.Reader
import OptimalAssignment.Scores.ArrayFile.Literal

/-!
# Numbers in literals

Whole numbers to four bases, decimals, and decimals of the imaginary axis.  Single underscores may
stand between digits, and no letter may follow the last digit.
-/

namespace OptimalAssignment.ArrayFile.Literal

open Decimal

/-- A letter, a digit, an underscore or any character beyond ASCII. -/
def isNameChar (c : Char) : Bool :=
  c.isAlphanum || c == '_' || 0x80 ≤ c.toNat

def isBinaryDigit (c : Char) : Bool := c == '0' || c == '1'
def isOctalDigit (c : Char) : Bool := '0' ≤ c && c ≤ '7'
def isHexDigit (c : Char) : Bool := (Text.hexDigit? c).isSome

/-- Digits after the first one; an underscore is followed by a digit. -/
def moreDigits (digit : Char → Bool) : List Char → Option (List Char × List Char)
  | '_' :: d :: cs =>
      if digit d then (moreDigits digit cs).map fun (ds, rest) => (d :: ds, rest) else Option.none
  | ['_'] => Option.none
  | c :: cs =>
      if digit c then (moreDigits digit cs).map fun (ds, rest) => (c :: ds, rest)
      else some ([], c :: cs)
  | [] => some ([], [])

/-- At least one digit. -/
def digits? (digit : Char → Bool) : List Char → Option (List Char × List Char)
  | c :: cs =>
      if digit c then (moreDigits digit cs).map fun (ds, rest) => (c :: ds, rest) else Option.none
  | [] => Option.none

/-- Digits, if the first character is one. -/
def anyDigits? (cs : List Char) : Option (List Char × List Char) :=
  if (cs.head?.any Char.isDigit) then digits? Char.isDigit cs else some ([], cs)

/-- A number is over where no name could go on. -/
def closed {α : Type} (found : α) (rest : List Char) : Option (α × List Char) :=
  if rest.head?.any isNameChar then Option.none else some (found, rest)

def inBase (base : Nat) (digit : Char → Bool) (cs : List Char) : Option (Literal × List Char) := do
  let cs := match cs with
    | '_' :: d :: cs => d :: cs
    | cs => cs
  let (ds, rest) ← digits? digit cs
  closed (.int ((inBase? base ds).getD 0 : Nat)) rest

/-- A point and the digits behind it. -/
def fraction? : List Char → Option (Option (List Char) × List Char)
  | '.' :: cs => (anyDigits? cs).map fun (ds, rest) => (some ds, rest)
  | cs => some (Option.none, cs)

/-- The sign and the digits of an exponent. -/
def power? : List Char → Option (Option (List Char) × List Char)
  | c :: cs =>
      if c == 'e' || c == 'E' then
        let signed := cs.takeWhile fun d => d == '+' || d == '-'
        if 1 < signed.length then Option.none
        else (digits? Char.isDigit (cs.drop signed.length)).map fun (ds, rest) =>
          (some (signed ++ ds), rest)
      else some (Option.none, c :: cs)
  | [] => some (Option.none, [])

/-- A whole number starts with a zero only if all of its digits are zeros. -/
def whole? (ds : List Char) : Option Literal :=
  if Decimal.maxDigits < ds.length || (ds.head? == some '0' && !ds.all (· == '0')) then Option.none
  else some (.int (Text.ofDigits ds))

def realOf (whole : List Char) (fraction power : Option (List Char)) : Float :=
  let mantissa := whole ++ '.' :: fraction.getD []
  let digits := match power with
    | some p => mantissa ++ 'e' :: p
    | Option.none => mantissa
  (real? digits).getD 0.0

def decimal (cs : List Char) : Option (Literal × List Char) := do
  let (whole, rest) ← anyDigits? cs
  let (fraction, rest) ← fraction? rest
  let (power, rest) ← power? rest
  match rest with
  | 'j' :: rest | 'J' :: rest => closed (.complex 0.0 (realOf whole fraction power)) rest
  | _ =>
      if fraction.isNone && power.isNone then closed (← whole? whole) rest
      else closed (.real (realOf whole fraction power)) rest

/-- The number at the front of a text that starts with a digit, or with a point and a digit. -/
def number (cs : List Char) : Option (Literal × List Char) :=
  match cs with
  | '0' :: 'x' :: cs | '0' :: 'X' :: cs => inBase 16 isHexDigit cs
  | '0' :: 'o' :: cs | '0' :: 'O' :: cs => inBase 8 isOctalDigit cs
  | '0' :: 'b' :: cs | '0' :: 'B' :: cs => inBase 2 isBinaryDigit cs
  | cs => decimal cs

end OptimalAssignment.ArrayFile.Literal

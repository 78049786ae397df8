import OptimalAssignment.Decimal.Digits
import OptimalAssignment.Text.Blank

/-!
# Reading decimals

`real?` accepts exactly the row of an optional sign and either a decimal with an optional exponent
or one of the words `inf`, `infinity` and `nan` in any case.  `looseReal?` and `looseInt?` also take
surrounding blanks, digits of any script, and single underscores between digits.
-/

namespace OptimalAssignment.Decimal

open Binary Text

/-- The double nearest to `digits * 10 ^ power`. -/
def nearest (negative : Bool) (digits : Nat) (power : Int) : Float :=
  let size : Int := (toString digits).length
  if digits = 0 then ofQuotient negative 0 1
  -- Beyond these powers of ten every decimal overflows or vanishes.
  else if 400 < power + size then infinity negative
  else if power + size < -400 then ofQuotient negative 0 1
  else if 0 ≤ power then ofQuotient negative (digits * pow10 power.toNat) 1
  else ofQuotient negative digits (pow10 (-power).toNat)

/-- Splits off an optional sign; `true` stands for minus. -/
def sign : List Char → Bool × List Char
  | '-' :: cs => (true, cs)
  | '+' :: cs => (false, cs)
  | cs => (false, cs)

/-- An exponent is a sign and at least one digit, and nothing else. -/
def exponent? (cs : List Char) : Option Int :=
  let (negative, ds) := sign cs
  if ds.isEmpty || !ds.all Char.isDigit then none
  else some (if negative then -(ofDigits ds : Int) else ofDigits ds)

/-- What follows the digits of a mantissa: nothing, or `e` and an exponent. -/
def tail? : List Char → Option Int
  | [] => some 0
  | c :: cs => if c == 'e' || c == 'E' then exponent? cs else none

/-- The digits around the point and the rest. -/
def mantissa (cs : List Char) : List Char × List Char × List Char :=
  let whole := cs.takeWhile Char.isDigit
  match cs.dropWhile Char.isDigit with
  | '.' :: rest => (whole, rest.takeWhile Char.isDigit, rest.dropWhile Char.isDigit)
  | rest => (whole, [], rest)

def unsigned? (negative : Bool) (cs : List Char) : Option Float :=
  let (whole, fraction, rest) := mantissa cs
  if whole.isEmpty && fraction.isEmpty then none
  else (tail? rest).map fun power =>
    nearest negative (ofDigits (whole ++ fraction)) (power - fraction.length)

def word? (negative : Bool) (cs : List Char) : Option Float :=
  let w := cs.map Char.toLower
  if w = ['i', 'n', 'f'] || w = ['i', 'n', 'f', 'i', 'n', 'i', 't', 'y'] then
    some (infinity negative)
  else if w = ['n', 'a', 'n'] then some notANumber
  else none

def real? (cs : List Char) : Option Float :=
  let (negative, rest) := sign cs
  (word? negative rest).orElse fun _ => unsigned? negative rest

/-- Drops single underscores between digits; nothing if one stands anywhere else. -/
def joinGroups : List Char → Option (List Char)
  | [] => some []
  | c :: '_' :: d :: cs =>
      if c.isDigit && d.isDigit then (joinGroups (d :: cs)).map (c :: ·) else none
  | c :: cs => if c == '_' then none else (joinGroups cs).map (c :: ·)

/-- A digit of any script as an ASCII digit. -/
def plainDigit (c : Char) : Char :=
  match digitValue? c with
  | some d => digitChar d
  | none => c

def loosen (s : String) : Option (List Char) :=
  joinGroups ((trim isNumberBlank s.toList).map plainDigit)

def looseReal? (s : String) : Option Float :=
  (loosen s).bind real?

/-- No more decimal digits than these are read as a whole number. -/
def maxDigits : Nat := 4300

def looseInt? (s : String) : Option Int := do
  let cs ← loosen s
  if maxDigits < (sign cs).2.length then none else exponent? cs

/-! ## Other bases -/

/-- The number that digits of a base of at most sixteen write; there is at least one. -/
def inBase? (base : Nat) (cs : List Char) : Option Nat :=
  if cs.isEmpty then none
  else cs.foldlM (fun n c => (hexDigit? c).bind fun d =>
    if d < base then some (base * n + d) else none) 0

/-- The letter that may stand behind a zero in front of the digits of a base. -/
def baseLetter (base : Nat) : Char :=
  if base = 2 then 'b' else if base = 8 then 'o' else 'x'

def withoutLetter (base : Nat) : List Char → List Char
  | '0' :: c :: cs => if c.toLower == baseLetter base then cs else '0' :: c :: cs
  | cs => cs

/-- A whole number to the base of two, eight or sixteen, with a sign and perhaps its letter. -/
def looseIntIn? (base : Nat) (s : String) : Option Int := do
  let cs ← loosen s
  let (negative, ds) := sign cs
  let n ← inBase? base (withoutLetter base ds)
  return if negative then -(n : Int) else n

end OptimalAssignment.Decimal

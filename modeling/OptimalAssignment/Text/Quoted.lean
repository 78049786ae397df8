import OptimalAssignment.Text.Printable

/-!
# Quoted text

How messages show a text: between single quotes, or between double quotes when it holds a single
quote and no double one.  Backslashes and the surrounding quote are escaped, and a character that
is not printable is written by its code point in two, four or eight hexadecimal digits.
-/

namespace OptimalAssignment.Text

/-- The last `width` hexadecimal digits of a number, in lower case. -/
def hexDigits : Nat → Nat → List Char
  | 0, _ => []
  | width + 1, n =>
      hexDigits width (n / 16) ++
        [Char.ofNat (if n % 16 < 10 then 0x30 + n % 16 else 0x57 + n % 16)]

def quoteMark (cs : List Char) : Char :=
  if cs.contains '\'' && !cs.contains '"' then '"' else '\''

def escapeCodePoint (n : Nat) : List Char :=
  if n < 0x100 then '\\' :: 'x' :: hexDigits 2 n
  else if n < 0x10000 then '\\' :: 'u' :: hexDigits 4 n
  else '\\' :: 'U' :: hexDigits 8 n

/-- One character between quotes, for a given class of characters that stand for themselves. -/
def escapeChar (shown : Char → Bool) (mark c : Char) : List Char :=
  if c == mark || c == '\\' then ['\\', c]
  else if c == '\t' then ['\\', 't']
  else if c == '\n' then ['\\', 'n']
  else if c == '\r' then ['\\', 'r']
  else if shown c then [c]
  else escapeCodePoint c.toNat

def quoteWith (shown : Char → Bool) (cs : List Char) : List Char :=
  let mark := quoteMark cs
  mark :: cs.flatMap (escapeChar shown mark) ++ [mark]

def quote (s : String) : String :=
  String.ofList (quoteWith isPrintable s.toList)

/-! ## Code points

A text may come as numbers, some of which are no characters. -/

def escapeCode (shown : Char → Bool) (mark : Char) (n : Nat) : List Char :=
  if n.isValidChar then escapeChar shown mark (Char.ofNat n) else escapeCodePoint n

def quoteCodesWith (shown : Char → Bool) (codes : List Nat) : String :=
  let mark := quoteMark (codes.map Char.ofNat)
  String.ofList (mark :: codes.flatMap (escapeCode shown mark) ++ [mark])

def quoteCodes (codes : List Nat) : String :=
  quoteCodesWith isPrintable codes

/-- The bytes that stand for themselves. -/
def isPlainByte (c : Char) : Bool :=
  0x20 ≤ c.toNat && c.toNat < 0x7f

/-- A byte string, each byte given as the character of its value. -/
def quoteBytes (s : String) : String :=
  "b" ++ String.ofList (quoteWith isPlainByte s.toList)

/-- A byte string by the numbers of its bytes. -/
def quoteByteCodes (bytes : List Nat) : String :=
  "b" ++ quoteCodesWith isPlainByte bytes

end OptimalAssignment.Text

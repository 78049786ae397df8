import OptimalAssignment.Scores.ArrayFile.Literal.Number
import OptimalAssignment.Scores.ArrayFile.Literal.Quotation

/-!
# Tokens of literals

Between brackets the ends of lines and the blanks at their starts count for nothing.  Outside of
brackets an end of a line ends the literal, and no line that holds anything starts with a blank.
-/

namespace OptimalAssignment.ArrayFile.Literal

inductive Token where
  | constant (v : Literal)
  /-- A quotation, which goes together with the quotations behind it. -/
  | quoted (v : Literal)
  | name (s : String)
  | mark (c : Char)
  /-- Two stars, in front of a record whose entries are taken over. -/
  | spread
  /-- The end of a line outside of brackets. -/
  | lineEnd

namespace Token

/-- Every end of a line as a line feed. -/
def plainLines : List Char → List Char
  | '\r' :: '\n' :: cs => '\n' :: plainLines cs
  | c :: cs => (if c == '\r' then '\n' else c) :: plainLines cs
  | [] => []

def isBlank (c : Char) : Bool := c == ' ' || c == '\t' || c == '\x0c'

/-- The width of the blanks in front of a line and the rest of it; a line that goes on behind a
backslash keeps the width it started with. -/
def indentation (width : Nat) (kept : Option Nat) : List Char → Nat × List Char
  | ' ' :: cs => indentation (width + 1) kept cs
  | '\t' :: cs => indentation (8 * (width / 8 + 1)) kept cs
  | '\x0c' :: cs => indentation 0 kept cs
  | '\\' :: '\n' :: c :: cs =>
      indentation width (if kept.isSome || width = 0 then kept else some width) (c :: cs)
  | cs => (kept.getD width, cs)

def isOpening (c : Char) : Bool := c == '(' || c == '[' || c == '\x7b'

/-- The bracket that closes another. -/
def closing? (c : Char) : Option Char :=
  if c == '(' then some ')'
  else if c == '[' then some ']'
  else if c == '\x7b' then some '\x7d'
  else Option.none

def isClosing (c : Char) : Bool := c == ')' || c == ']' || c == '\x7d'

/-- Brackets are nested no deeper than this. -/
def maxDepth : Nat := 200

/-- The brackets that wait to be closed after one more character. -/
def nested? (waiting : List Char) (c : Char) : Option (List Char) :=
  match closing? c with
  | some closing => if waiting.length < maxDepth then some (closing :: waiting) else Option.none
  | Option.none =>
      if isClosing c then
        match waiting with
        | w :: rest => if w == c then some rest else Option.none
        | [] => Option.none
      else some waiting

/-- Words that are no names. -/
def keywords : List String :=
  ["and", "as", "assert", "async", "await", "break", "class", "continue", "def", "del", "elif",
    "else", "except", "finally", "for", "from", "global", "if", "import", "in", "is", "lambda",
    "nonlocal", "not", "or", "pass", "raise", "return", "try", "while", "with", "yield"]

/-- ASCII and the letters among the next 128 characters. -/
def isLetter (c : Char) : Bool :=
  let n := c.toNat
  n < 0x80 || [0xaa, 0xb5, 0xba].contains n ||
    (0xc0 ≤ n && n ≤ 0xff && n != 0xd7 && n != 0xf7)

def word? (cs : List Char) : Option Token :=
  match String.ofList cs with
  | "None" => some (.constant .none)
  | "True" => some (.constant (.bool true))
  | "False" => some (.constant (.bool false))
  | s => if keywords.contains s || !cs.all isLetter then Option.none else some (.name s)

/-- A word, or a quotation with letters in front of it. -/
def wordOrQuotation (cs : List Char) : Option (Token × List Char) :=
  let word := cs.takeWhile isNameChar
  let rest := cs.dropWhile isNameChar
  if rest.head?.any fun c => c == '\'' || c == '"' then do
    let (v, rest) ← quotation (← QuoteStyle.ofLetters? word) rest
    return (.quoted v, rest)
  else (word? word).map (·, rest)

/-- The token at the front of a text that starts neither with a blank nor with an end of a line. -/
def first (cs : List Char) : Option (Token × List Char) :=
  match cs with
  | [] => Option.none
  | '*' :: '*' :: rest => some (.spread, rest)
  | '.' :: '.' :: '.' :: rest => some (.constant .dots, rest)
  | c :: rest =>
      if c.isDigit || (c == '.' && rest.head?.any Char.isDigit) then
        (number (c :: rest)).map fun (v, rest) => (.constant v, rest)
      else if isNameChar c || c == '\'' || c == '"' then wordOrQuotation (c :: rest)
      else if isOpening c || isClosing c || [',', ':', '+', '-'].contains c then
        some (.mark c, rest)
      else Option.none

def dropComment (cs : List Char) : List Char :=
  cs.dropWhile (· != '\n')

/-- The tokens of a text, at the start of a line or within one; nothing if it has none of a literal,
or if a bracket stays open.  Every step takes at least one character. -/
def all : Nat → Bool → List Char → List Char → Option (List Token)
  | 0, _, _, _ => Option.none
  | steps + 1, true, waiting, cs =>
      let (width, rest) := indentation 0 Option.none cs
      match rest with
      | [] => if width = 0 then some [] else Option.none
      | '\n' :: rest => all steps true waiting rest
      | '#' :: rest => all steps true waiting (dropComment rest)
      | rest => if width = 0 then all steps false waiting rest else Option.none
  | steps + 1, false, waiting, cs =>
      match cs with
      | [] => if waiting.isEmpty then some [] else Option.none
      | '\\' :: '\n' :: c :: rest => all steps false waiting (c :: rest)
      | '#' :: rest => all steps false waiting (dropComment rest)
      | '\n' :: rest =>
          if waiting.isEmpty then (all steps true waiting rest).map (.lineEnd :: ·)
          else all steps false waiting rest
      | c :: rest =>
          if isBlank c then all steps false waiting rest
          else do
            let (t, rest) ← first (c :: rest)
            let waiting ← match t with
              | .mark c => nested? waiting c
              | _ => some waiting
            return t :: (← all steps false waiting rest)

/-- A line start takes no character of its own, so there are up to two steps for each. -/
def ofText? (cs : List Char) : Option (List Token) :=
  let cs := plainLines cs
  all (2 * cs.length + 2) true [] cs

end Token
end OptimalAssignment.ArrayFile.Literal

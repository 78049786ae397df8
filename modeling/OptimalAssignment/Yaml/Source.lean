/-!
# The characters of a YAML document

A document is read by line and column.  Three of the ends of lines count as one and the same; the
separators `U+2028` and `U+2029` end lines too but stay what they are.
-/

namespace OptimalAssignment.Yaml

/-! ## Classes of characters -/

def isBreak (c : Char) : Bool :=
  c == '\n' || c == '\r' || c == '\u0085' || c == '\u2028' || c == '\u2029'

def isBlank (c : Char) : Bool :=
  c == ' ' || c == '\t'

def isGap (c : Char) : Bool :=
  isBlank c || isBreak c

/-- Whether a mark before these characters stands alone. -/
def standsAlone : List Char → Bool
  | [] => true
  | c :: _ => isGap c

/-- The letters of names. -/
def isNameChar (c : Char) : Bool :=
  c.isAlphanum || c == '_' || c == '-'

/-- Characters that a document may hold. -/
def isAllowed (c : Char) : Bool :=
  let n := c.toNat
  n == 9 || n == 10 || n == 13 || (0x20 ≤ n && n ≤ 0x7e) || n == 0x85 || (0xa0 ≤ n && n ≤ 0xfffd) ||
    0x10000 ≤ n

/-! ## Ends of lines -/

/-- The ends of lines that only end lines become `U+000A`. -/
def unifyBreaks : List Char → List Char
  | '\r' :: '\n' :: cs => '\n' :: unifyBreaks cs
  | c :: cs => (if c == '\r' || c == '\u0085' then '\n' else c) :: unifyBreaks cs
  | [] => []

/-- Lines are joined by a blank, and empty lines between them are kept. -/
def fold : List Char → List Char
  | ['\n'] => [' ']
  | '\n' :: ends => ends
  | ends => ends

/-! ## Positions -/

/-- What is left of a document, and where that is. -/
structure Source where
  line : Nat
  col : Nat
  chars : List Char

namespace Source

/-- A byte order mark in front is no part of the document; a second one takes a column. -/
def ofChars : List Char → Source
  | '\uFEFF' :: '\uFEFF' :: cs => ⟨0, 1, cs⟩
  | '\uFEFF' :: cs | cs => ⟨0, 0, cs⟩

def ofText (text : String) : Source :=
  ofChars (unifyBreaks text.toList)

def isEnd (s : Source) : Bool :=
  s.chars.isEmpty

/-- The source after its first characters, which stand on one line. -/
def drop (s : Source) (n : Nat) : Source :=
  ⟨s.line, s.col + n, s.chars.drop n⟩

/-- The longest beginning in a class of characters without ends of lines, and what follows it. -/
def span (s : Source) (p : Char → Bool) : List Char × Source :=
  let cs := s.chars.takeWhile p
  (cs, s.drop cs.length)

/-- The end of a line, nothing at the end of the document. -/
def lineEnd (s : Source) : List Char × Source :=
  match s.chars with
  | c :: cs => ([c], ⟨s.line + 1, 0, cs⟩)
  | [] => ([], s)

/-- The rest of a line that holds no more than a comment. -/
def emptyLine? (s : Source) : Option Source :=
  let (_, t) := s.span isBlank
  let t := if t.chars.head? == some '#' then (t.span fun c => !isBreak c).2 else t
  if t.chars.head?.all isBreak then some t.lineEnd.2 else none

end Source

/-- Whether a document starts or ends with these characters at the start of a line. -/
def isBoundary : List Char → Bool
  | '-' :: '-' :: '-' :: cs | '.' :: '.' :: '.' :: cs => standsAlone cs
  | _ => false

def Source.atBoundary (s : Source) : Bool :=
  s.col == 0 && isBoundary s.chars

end OptimalAssignment.Yaml

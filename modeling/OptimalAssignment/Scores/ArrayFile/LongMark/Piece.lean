import OptimalAssignment.Scores.ArrayFile.Literal.Number
import OptimalAssignment.Text.Blank

/-!
# Pieces of a header

A header cut into numbers, names, ends of lines and whatever else stands in it, each with its place.
Blanks and lines that go on behind a backslash belong to no piece.  Whether the pieces make up a
literal does not matter here, but brackets and quotations have to end.
-/

namespace OptimalAssignment.ArrayFile.LongMark

inductive PieceKind where
  | number
  | name
  | lineEnd
  /-- The blanks in front of a line that has more of them than the line before. -/
  | indent
  /-- The place where a line has fewer blanks. -/
  | dedent
  | other
  deriving DecidableEq, Repr

/-- Rows count from one, columns from zero. -/
structure Place where
  row : Nat
  col : Nat
  deriving DecidableEq, Repr

structure Piece where
  kind : PieceKind
  text : List Char
  start : Place
  stop : Place

inductive Fault where
  /-- A bracket or a quotation does not end, or a bracket closes nothing. -/
  | unfinished
  /-- A line has fewer blanks than the one before, but not as many as any line further up. -/
  | unevenIndent
  /-- A piece starts in front of the end of the one before. -/
  | overlap (start stop : Place)
  deriving DecidableEq, Repr

/-- A piece within a row. -/
def Piece.within (kind : PieceKind) (row col : Nat) (text : List Char) : Piece :=
  ⟨kind, text, ⟨row, col⟩, ⟨row, col + text.length⟩⟩

/-! ## Numbers -/

open Literal (isBinaryDigit isOctalDigit isHexDigit)

/-- The digits at the front, single underscores between them included. -/
def moreDigits (digit : Char → Bool) : List Char → List Char
  | '_' :: d :: cs => if digit d then '_' :: d :: moreDigits digit cs else []
  | d :: cs => if digit d then d :: moreDigits digit cs else []
  | [] => []

def digitsAt (digit : Char → Bool) : List Char → List Char
  | d :: cs => if digit d then d :: moreDigits digit cs else []
  | [] => []

/-- An exponent with at least one digit, or nothing. -/
def powerAt : List Char → List Char
  | c :: cs =>
      if c == 'e' || c == 'E' then
        let signed := (cs.take 1).filter fun d => d == '+' || d == '-'
        match digitsAt Char.isDigit (cs.drop signed.length) with
        | [] => []
        | ds => c :: (signed ++ ds)
      else []
  | [] => []

/-- A decimal with a point or an exponent, or nothing. -/
def realAt (cs : List Char) : List Char :=
  let whole := digitsAt Char.isDigit cs
  match cs.drop whole.length with
  | '.' :: rest =>
      let fraction := digitsAt Char.isDigit rest
      if whole.isEmpty && fraction.isEmpty then []
      else whole ++ '.' :: fraction ++ powerAt (rest.drop fraction.length)
  | rest =>
      match powerAt rest with
      | [] => []
      | power => if whole.isEmpty then [] else whole ++ power

/-- Digits behind a zero and the letter of a base, or nothing. -/
def basedAt (letter : Char) (digit : Char → Bool) : List Char → List Char
  | '0' :: c :: cs =>
      if c.toLower == letter then
        match moreDigits digit cs with
        | [] => []
        | ds => '0' :: c :: ds
      else []
  | _ => []

/-- A whole number; after a zero only zeros. -/
def wholeAt (cs : List Char) : List Char :=
  match basedAt 'x' isHexDigit cs, basedAt 'b' isBinaryDigit cs, basedAt 'o' isOctalDigit cs with
  | [], [], [] =>
      if cs.head? == some '0' then digitsAt (· == '0') cs else digitsAt Char.isDigit cs
  | hex, binary, octal => hex ++ binary ++ octal

def isImaginaryUnit (c : Char) : Bool := c == 'j' || c == 'J'

/-- The number at the front, or nothing. -/
def numberAt (cs : List Char) : List Char :=
  let whole := digitsAt Char.isDigit cs
  let real := realAt cs
  let unit (ds : List Char) := (cs.drop ds.length).takeWhile isImaginaryUnit |>.take 1
  if !whole.isEmpty && !(unit whole).isEmpty then whole ++ unit whole
  else if !real.isEmpty then real ++ unit real
  else wholeAt cs

/-! ## Quotations -/

/-- The letters in front of a quotation. -/
def quoteLetters : List (List Char) :=
  [[], ['b'], ['r'], ['u'], ['f'], ['b', 'r'], ['r', 'b'], ['f', 'r'], ['r', 'f']]

/-- A quotation that goes on in the next line. -/
structure Quotation where
  start : Place
  text : List Char
  mark : Char
  triple : Bool

/-- The number of characters up to the end of a quotation in a line. -/
def closeAt? (mark : Char) (triple : Bool) : List Char → Option Nat
  | '\\' :: c :: cs => if c == '\n' then none else (closeAt? mark triple cs).map (· + 2)
  | c :: cs =>
      if c == mark then
        if !triple then some 1
        else if cs.take 2 == [mark, mark] then some 3
        else (closeAt? mark triple cs).map (· + 1)
      else (closeAt? mark triple cs).map (· + 1)
  | [] => none

def endsLine (cs : List Char) : Bool := cs == ['\n'] || cs == ['\r', '\n']

/-- Whether a line, from inside of a quotation, ends with a backslash before the quotation does. -/
def goesOn (mark : Char) : List Char → Bool
  | '\\' :: c :: cs => endsLine (c :: cs) || (c != '\n' && goesOn mark cs)
  | c :: cs => c != mark && c != '\n' && goesOn mark cs
  | [] => false

inductive Quoted where
  | closed (length : Nat)
  | opened (mark : Char) (triple : Bool)

/-- The quotation at the front; none that neither ends nor goes on in the next line. -/
def quotedAt? (cs : List Char) : Option Quoted :=
  let letters := cs.takeWhile Char.isAlpha
  if !quoteLetters.contains (letters.map Char.toLower) then none
  else
    match cs.drop letters.length with
    | mark :: rest =>
        if mark != '\'' && mark != '"' then none
        else if rest.take 2 == [mark, mark] then
          some (match closeAt? mark true (rest.drop 2) with
            | some n => .closed (letters.length + 3 + n)
            | none => .opened mark true)
        else
          match closeAt? mark false (rest.takeWhile (· != '\n')) with
          | some n => some (.closed (letters.length + 1 + n))
          | none => if goesOn mark rest then some (.opened mark false) else none
    | [] => none

/-! ## Lines -/

/-- What is left to do behind the end of a line. -/
structure State where
  /-- The number of open brackets. -/
  depth : Int
  continued : Bool
  /-- The widths of the lines further up that began with more blanks than those before. -/
  indents : List Nat
  quotation : Option Quotation
  /-- The last line holds nothing but blanks, and counts for nothing. -/
  stopped : Bool

def State.start : State := ⟨0, false, [0], none, false⟩

def isBlank (c : Char) : Bool := c == ' ' || c == '\t' || c == '\x0c'

/-- Letters, digits and underscores among the first 256 characters. -/
def isWordChar (c : Char) : Bool :=
  let n := c.toNat
  c.isAlphanum || c == '_' || [0xaa, 0xb2, 0xb3, 0xb5, 0xb9, 0xba, 0xbc, 0xbd, 0xbe].contains n ||
    (0xc0 ≤ n && n != 0xd7 && n != 0xf7)

/-- The signs of operators and brackets. -/
def isSign (c : Char) : Bool :=
  "%&()*+,-./:;<=>@[]^\x7b|\x7d~".toList.contains c

def isComment (c : Char) : Bool := c != '\r' && c != '\n'

/-- How a bracket changes the number of open ones. -/
def bracketStep (c : Char) : Int :=
  if c == '(' || c == '[' || c == '\x7b' then 1
  else if c == ')' || c == ']' || c == '\x7d' then -1
  else 0

/-- The next piece of a line that does not start with a blank, unless it is a quotation. -/
def plainAt (cs : List Char) : PieceKind × List Char :=
  match cs with
  | '#' :: _ => (.other, cs.takeWhile isComment)
  | '!' :: '=' :: _ => (.other, ['!', '='])
  | _ =>
      let number := numberAt cs
      let word := cs.takeWhile isWordChar
      if !number.isEmpty then (.number, number)
      else if endsLine cs then (.lineEnd, cs)
      else if cs.head?.any isSign then (.other, cs.take 1)
      else (.name, word)

/-- The pieces of the rest of a line.  A character that starts no piece is a piece of its own, as
are the blanks in front of it. -/
def within (row : Nat) : Nat → Nat → State → List Char → List Piece × State
  | 0, _, s, _ => ([], s)
  | steps + 1, col, s, cs =>
      let blanks := cs.takeWhile isBlank
      let rest := cs.drop blanks.length
      let place := col + blanks.length
      match rest with
      | [] => ([], s)
      | c :: after =>
          if c == '\\' && endsLine after then ([], { s with continued := true })
          else
            match quotedAt? rest with
            | some (.opened mark triple) =>
                ([], { s with quotation := some ⟨⟨row, place⟩, rest, mark, triple⟩ })
            | some (.closed length) =>
                let (found, s) := within row steps (place + length) s (rest.drop length)
                (.within .other row place (rest.take length) :: found, s)
            | none =>
                let (kind, text) := plainAt rest
                if text.isEmpty then
                  let (found, s) := within row steps (col + 1) s (cs.drop 1)
                  (.within .other row col (cs.take 1) :: found, s)
                else
                  let depth := if kind = .other then s.depth + bracketStep c else s.depth
                  let (found, s) := within row steps (place + text.length) { s with depth }
                    (rest.drop text.length)
                  (.within kind row place text :: found, s)

/-- The width of the blanks in front of a line, and their number. -/
def indentation (width count : Nat) : List Char → Nat × Nat
  | ' ' :: cs => indentation (width + 1) (count + 1) cs
  | '\t' :: cs => indentation (8 * (width / 8 + 1)) (count + 1) cs
  | '\x0c' :: cs => indentation 0 (count + 1) cs
  | _ => (width, count)

/-- A line with nothing but a comment. -/
def remark (row count : Nat) (rest : List Char) : List Piece :=
  let comment := if rest.head? == some '#' then
      (rest.reverse.dropWhile fun c => !isComment c).reverse else []
  let ending := rest.drop comment.length
  let found := [Piece.within .lineEnd row (count + comment.length) ending]
  if comment.isEmpty then found else .within .other row count comment :: found

/-- The dedents in front of a line, and the widths that are left. -/
def dedents (row count width : Nat) : List Nat → Except Fault (List Piece × List Nat)
  | w :: rest =>
      if width < w then
        if rest.contains width then do
          let (found, left) ← dedents row count width rest
          return (.within .dedent row count [] :: found, left)
        else .error .unevenIndent
      else .ok ([], w :: rest)
  | [] => .ok ([], [])

/-- A line that starts outside of brackets. -/
def freshLine (row : Nat) (s : State) (line : List Char) : Except Fault (List Piece × State) := do
  let (width, count) := indentation 0 0 line
  let rest := line.drop count
  match rest with
  | [] => return ([], { s with stopped := true })
  | c :: _ =>
      if c == '#' || c == '\r' || c == '\n' then return (remark row count rest, s)
      let (found, indents) ← dedents row count width s.indents
      if indents.head?.any (· < width) then
        let (more, s) := within row line.length count { s with indents := width :: indents } rest
        return (.within .indent row 0 (line.take count) :: more, s)
      else
        let (more, s) := within row line.length count { s with indents } rest
        return (found ++ more, s)

def endsWithBackslash (line : List Char) : Bool :=
  match line.reverse with
  | '\n' :: '\\' :: _ | '\n' :: '\r' :: '\\' :: _ => true
  | _ => false

/-- A line that starts within a quotation. -/
def quotedLine (row : Nat) (s : State) (q : Quotation) (line : List Char) : List Piece × State :=
  match closeAt? q.mark q.triple line with
  | some n =>
      let (found, s) := within row (line.length + 1) n { s with quotation := none } (line.drop n)
      (⟨.other, q.text ++ line.take n, q.start, ⟨row, n⟩⟩ :: found, s)
  | none =>
      if q.triple || endsWithBackslash line then
        ([], { s with quotation := some { q with text := q.text ++ line } })
      else
        ([⟨.other, q.text ++ line, q.start, ⟨row, line.length⟩⟩], { s with quotation := none })

def line (row : Nat) (s : State) (cs : List Char) : Except Fault (List Piece × State) :=
  match s.quotation with
  | some q => .ok (quotedLine row s q cs)
  | none =>
      if s.depth = 0 ∧ !s.continued then freshLine row s cs
      else .ok (within row (cs.length + 1) 0 { s with continued := false } cs)

/-- Lines with the line feeds at their ends. -/
def cutLines : List Char → List (List Char)
  | [] => []
  | c :: cs =>
      if c == '\n' then ['\n'] :: cutLines cs
      else
        match cutLines cs with
        | l :: ls => (c :: l) :: ls
        | [] => [[c]]

def linesFrom (row : Nat) (s : State) : List (List Char) → Except Fault (List Piece × State)
  | [] => .ok ([], s)
  | l :: ls => do
      let (found, s) ← line row s l
      let (more, s) ← linesFrom (row + 1) s ls
      return (found ++ more, s)

def isFinished (s : State) : Bool :=
  s.quotation.isNone && s.depth == 0 && !s.continued

/-- The last line ends behind its last character if it holds more than a comment. -/
def ending (lines : List (List Char)) : List Piece :=
  match lines.getLast? with
  | none => []
  | some l =>
      let kept := Text.trim Text.isBlank l
      if l.getLast?.any isComment && kept.head? != some '#' then
        [⟨.lineEnd, [], ⟨lines.length, l.length⟩, ⟨lines.length, l.length + 1⟩⟩]
      else []

def Piece.all (cs : List Char) : Except Fault (List Piece) := do
  let lines := cutLines cs
  let (found, s) ← linesFrom 1 .start lines
  if !isFinished s then .error .unfinished
  else if s.stopped then return found
  else return found ++ ending lines

end OptimalAssignment.ArrayFile.LongMark

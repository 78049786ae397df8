import OptimalAssignment.Text.Digit
import OptimalAssignment.Yaml.Source

/-!
# Scalars in a document

The three ways to write a text: without quotes, between quotes, and as a block of lines.  Each
reader gives the text and the source behind it, and nothing if the scalar is malformed.  Every step
takes a character, so the length of what is left always suffices as the number of steps.
-/

namespace OptimalAssignment.Yaml

open Text

/-! ## Gaps inside scalars -/

/-- Ends of lines and the blanks at the starts of lines.  No tab stands before the column `floor`.
-/
def lineEnds (floor : Nat) : Nat → Nat → List Char → Option (List Char × Source)
  | line, col, c :: cs =>
      if isBreak c then
        (lineEnds floor (line + 1) 0 cs).map fun (ends, s) => (c :: ends, s)
      else if c == ' ' || (c == '\t' && floor ≤ col) then lineEnds floor line (col + 1) cs
      else if c == '\t' then none
      else some ([], ⟨line, col, c :: cs⟩)
  | line, col, [] => some ([], ⟨line, col, []⟩)

/-- The text that a gap stands for: blanks on one line are kept, ends of lines are folded. -/
def gap (floor : Nat) (s : Source) : Option (List Char × Source) :=
  let (blanks, t) := s.span isBlank
  if t.chars.head?.any isBreak then
    (lineEnds floor t.line t.col t.chars).map fun (ends, u) => (fold ends, u)
  else some (blanks, t)

/-! ## Plain scalars -/

def flowMarks : List Char := [',', '[', ']', '\x7b', '\x7d']

/-- The marks that no plain scalar starts with. -/
def indicators : List Char :=
  ['-', '?', ':', '#', '&', '*', '!', '|', '>', '\'', '"', '%', '@', '\x60'] ++ flowMarks

def startsPlain (flow : Bool) : List Char → Bool
  | [] => false
  | c :: cs =>
      !isGap c &&
        (!indicators.contains c || (c == '-' && !cs.head?.any isBlank) ||
          (!flow && (c == '?' || c == ':') && !standsAlone cs))

/-- A colon right before a mark is an error inside a flow collection. -/
def isBadColon : List Char → Bool
  | ':' :: c :: _ => c == '?' || flowMarks.contains c
  | _ => false

def endsPlain (flow : Bool) (c : Char) (cs : List Char) : Bool :=
  isGap c || (c == ':' && standsAlone cs) || (flow && flowMarks.contains c)

/-- A plain scalar up to the next gap or mark. -/
def plainWord (flow : Bool) : List Char → Option (List Char)
  | [] => some []
  | c :: cs =>
      if flow && isBadColon (c :: cs) then none
      else if endsPlain flow c cs then some []
      else (plainWord flow cs).map (c :: ·)

/-- A text, the source behind it, and whether that is on a later line than the text. -/
structure Plain where
  text : List Char
  rest : Source
  crossed : Bool

/-- Puts a word and the gap behind it in front. -/
def Plain.after (word gapText : List Char) (crossed : Bool) (p : Plain) : Plain :=
  if p.text.isEmpty then ⟨word, p.rest, crossed⟩
  else ⟨word ++ gapText ++ p.text, p.rest, p.crossed⟩

/-- The words of a plain scalar.  In block style its further lines start at the column `floor` or
further in. -/
def plain (flow : Bool) (floor : Nat) : Nat → Source → Option Plain
  | 0, _ => none
  | fuel + 1, s =>
      if s.atBoundary || s.chars.head? == some '#' then some ⟨[], s, false⟩
      else do
        let word ← plainWord flow s.chars
        let t := s.drop word.length
        if !t.chars.head?.any isGap then return ⟨word, t, false⟩
        let (between, u) ← gap floor t
        let crossed := t.line < u.line
        if !flow && u.col < floor then return ⟨word, u, crossed⟩
        return (← plain flow floor fuel u).after word between crossed

/-! ## Quoted scalars -/

def escapes : List (Char × Char) :=
  [('0', '\x00'), ('a', '\x07'), ('b', '\x08'), ('t', '\t'), ('\t', '\t'), ('n', '\n'),
    ('v', '\x0b'), ('f', '\x0c'), ('r', '\r'), ('e', '\x1b'), (' ', ' '), ('"', '"'),
    ('\\', '\\'), ('/', '/'), ('N', '\u0085'), ('_', '\u00a0'), ('L', '\u2028'), ('P', '\u2029')]

/-- The number of hexadecimal digits that an escape takes. -/
def escapeWidths : List (Char × Nat) :=
  [('x', 2), ('u', 4), ('U', 8)]

/-- A character of a number that is one. -/
def charOf? (n : Nat) : Option Char :=
  if h : n.isValidChar then some (Char.ofNatAux n h) else none

/-- One escaped character and the number of characters that write it. -/
def escaped (c : Char) (cs : List Char) : Option (Char × Nat) :=
  match escapes.lookup c with
  | some d => some (d, 1)
  | none => do
      let width ← escapeWidths.lookup c
      let n ← hex? width cs
      return (← charOf? n, width + 1)

/-- Characters in front of a place, which must not be the start or end of a document. -/
def before (cs : List Char) (s : Source) : Option (Option (List Char) × Source) :=
  if s.atBoundary then none else some (some cs, s)

/-- What a backslash stands for with the characters behind it; the end of a line is left out. -/
def escapedPiece (s : Source) : List Char → Option (Option (List Char) × Source)
  | [] => none
  | c :: cs =>
      if isBreak c then do
        let (ends, t) ← lineEnds 0 (s.line + 1) 0 cs
        before ends t
      else do
        let (d, n) ← escaped c cs
        return (some [d], s.drop (n + 1))

/-- The next characters of a quoted scalar, if it does not end with a quote there. -/
def quotedPiece (double : Bool) (s : Source) : Option (Option (List Char) × Source) :=
  match s.chars with
  | [] => none
  | c :: cs =>
      if isGap c then do
        let (text, t) ← gap 0 s
        before text t
      else if c == (if double then '"' else '\'') then
        if !double && cs.head? == some c then some (some [c], s.drop 2) else some (none, s.drop 1)
      else if double && c == '\\' then escapedPiece s cs
      else some (some [c], s.drop 1)

/-- The text up to the closing quote, from behind the opening one. -/
def quoted (double : Bool) : Nat → Source → Option (List Char × Source)
  | 0, _ => none
  | fuel + 1, s => do
      match ← quotedPiece double s with
      | (some cs, t) =>
          let (rest, u) ← quoted double fuel t
          return (cs ++ rest, u)
      | (none, t) => return ([], t)

/-! ## Block scalars -/

/-- What becomes of the ends of lines at the end of a block scalar. -/
inductive Chomping where
  | strip
  | clip
  | keep
  deriving DecidableEq, Repr

def chomping? : Char → Option Chomping
  | '+' => some .keep
  | '-' => some .strip
  | _ => none

def indentation? (c : Char) : Option Nat :=
  if c.isDigit then some (asciiDigit c) else none

/-- What the next character says, if it says anything, and the source behind it. -/
def optional {α : Type} (read? : Char → Option α) (s : Source) : Option α × Source :=
  match s.chars.head?.bind read? with
  | some x => (some x, s.drop 1)
  | none => (none, s)

/-- How a block scalar ends and how far it is indented, in any order; the indentation is not zero.
-/
def blockHeader (s : Source) : Option (Chomping × Option Nat × Source) :=
  let (before, t) := optional chomping? s
  let (width, u) := optional indentation? t
  let (after, v) := optional (fun c => if before.isSome then none else chomping? c) u
  if width == some 0 then none else some ((before <|> after).getD .clip, width, v)

/-- Empty lines; `indent` is the column where lines have text, as far as it is known, and `deepest`
the largest column that has been reached. -/
def emptyLines (indent : Option Nat) :
    Nat → Nat → Nat → List Char → Option (List Char × Nat × Source)
  | deepest, line, col, c :: cs =>
      let before := indent.all (col < ·)
      if before && c == ' ' then emptyLines indent (max deepest (col + 1)) line (col + 1) cs
      else if before && c == '\t' then none
      else if isBreak c then
        (emptyLines indent deepest (line + 1) 0 cs).map fun (ends, r) => (c :: ends, r)
      else some ([], deepest, ⟨line, col, c :: cs⟩)
  | deepest, line, col, [] => some ([], deepest, ⟨line, col, []⟩)

/-- What joins two lines: the end of the first one, or a blank if it is folded and no empty lines
come between. -/
def joint (folds : Bool) (ending empty : List Char) : List Char :=
  if folds && ending == ['\n'] then if empty.isEmpty then [' '] else empty else ending ++ empty

def Chomping.tail : Chomping → List Char → List Char → List Char
  | .strip, _, _ => []
  | .clip, ending, _ => ending
  | .keep, ending, empty => ending ++ empty

/-- The lines of a block scalar; `ending` is the end of the last line and `empty` the empty lines
after it.  Lines that start with a blank are not folded. -/
def blockLines (folds : Bool) (indent : Nat) (chomping : Chomping) :
    Nat → Bool → List Char → List Char → Source → Option (List Char × Source)
  | 0, _, _, _, _ => none
  | fuel + 1, afterBlank, ending, empty, s =>
      if s.col == indent && !s.isEnd then do
        let startsBlank := s.chars.head?.any isBlank
        let before := joint (folds && !afterBlank && !startsBlank) ending empty
        let (text, t) := s.span fun c => !isBreak c
        let (ending, t) := t.lineEnd
        let (empty, _, u) ← emptyLines (some indent) 0 t.line t.col t.chars
        let (rest, v) ← blockLines folds indent chomping fuel startsBlank ending empty u
        return (before ++ text ++ rest, v)
      else some (chomping.tail ending empty, s)

/-- A block scalar from behind its mark, inside a collection whose items end before `floor`. -/
def block (folds : Bool) (floor : Nat) (s : Source) : Option (List Char × Source) := do
  let (chomping, width, t) ← blockHeader s
  let t ← t.emptyLine?
  let given := width.map (floor - 1 + ·)
  let (empty, deepest, u) ← emptyLines given 0 t.line t.col t.chars
  let indent := given.getD (max deepest (max floor 1))
  blockLines folds indent chomping (u.chars.length + 1) false [] empty u

end OptimalAssignment.Yaml

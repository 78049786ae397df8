import OptimalAssignment.Decimal.Layout
import OptimalAssignment.Decimal.Reader
import OptimalAssignment.Text.Quoted
import OptimalAssignment.Value
import OptimalAssignment.Yaml.Scalar
import OptimalAssignment.Yaml.Source

/-!
# Writing YAML

Values in block style.  A text is written without quotes if it reads back as that text, else between
single quotes, and between double quotes if it holds characters that need an escape.  Texts that
look like a number or a truth value are always quoted.  Long texts are folded at single blanks.  A
key that is long or has several lines stands behind a question mark.
-/

namespace OptimalAssignment.Yaml

open Text

/-- Reals keep a point in front of an exponent. -/
def number : Decimal.Layout :=
  { Decimal.plain with digitTail := ".0", nan := ".nan", infinite := ".inf" }

/-! ## Which quotes a text needs -/

/-- Characters that are only written as escapes. -/
def needsEscape (c : Char) : Bool :=
  let n := c.toNat
  !(n == 10 || (0x20 ≤ n && n ≤ 0x7e) || (0xa0 ≤ n && n ≤ 0xfffd && n != 0xfeff))

def isGapChar (c : Char) : Bool :=
  isGap c || c == '\x00'

/-- Whether one of a class comes right after one of another. -/
def hasPair (p q : Char → Bool) : List Char → Bool
  | a :: b :: cs => (p a && q b) || hasPair p q (b :: cs)
  | _ => false

def endsWith (p : Char → Bool) (cs : List Char) : Bool :=
  cs.getLast?.any p

/-- Marks that start something else than a text. -/
def startMarks : List Char :=
  ['#', ',', '[', ']', '{', '}', '&', '*', '!', '|', '>', '\'', '"', '%', '@', '\x60']

def startsWithMark : List Char → Bool
  | '-' :: '-' :: '-' :: _ | '.' :: '.' :: '.' :: _ => true
  | c :: cs =>
      startMarks.contains c ||
        ((c == '?' || c == '-') && (cs.isEmpty || isGapChar (cs.headD ' ')))
  | [] => false

def hasBlockMark (cs : List Char) : Bool :=
  startsWithMark cs || hasPair (· == ':') isGapChar cs || endsWith (· == ':') cs ||
    hasPair isGapChar (· == '#') cs

def allowsPlain (cs : List Char) : Bool :=
  !(hasBlockMark cs || cs.head? == some ' ' || endsWith (· == ' ') cs ||
    cs.any fun c => isBreak c || needsEscape c)

def allowsSingle (cs : List Char) : Bool :=
  !(hasPair isBreak (· == ' ') cs || hasPair (· == ' ') isBreak cs || cs.any needsEscape)

/-- The words of truth values, with the short ones. -/
def isTruthWord (s : String) : Bool :=
  (truths.lookup s).isSome || ["y", "Y", "n", "N"].contains s

def looksLikeValue (s : String) : Bool :=
  isTruthWord s || (Decimal.looseInt? s).isSome || (Decimal.looseReal? s).isSome

inductive Quoting where
  | plain
  | single
  | double
  deriving DecidableEq, Repr

def quoting (s : String) : Quoting :=
  let cs := s.toList
  if !looksLikeValue s && isPlainText s && allowsPlain cs then .plain
  else if allowsSingle cs then .single
  else .double

/-! ## Folding -/

/-- A text is folded after this column. -/
def foldColumn : Nat := 80

/-- Where a text is written: the column of its further lines, and whether it may be folded. -/
structure Place where
  indent : Nat
  folds : Bool

def Place.newline (p : Place) : List Char :=
  '\n' :: List.replicate p.indent ' '

/-- The runs of blanks, of line ends, and of other characters. -/
def runs (cs : List Char) : List (List Char) :=
  cs.splitBy fun a b => (a == ' ') == (b == ' ') && isBreak a == isBreak b

/-- A single blank beyond the fold column becomes a line end. -/
def isFold (p : Place) (column : Nat) (run : List Char) : Bool :=
  p.folds && run == [' '] && foldColumn < column

def plainRuns (p : Place) (column : Nat) : List (List Char) → List Char
  | [] => []
  | run :: rest =>
      if isFold p column run then p.newline ++ plainRuns p p.indent rest
      else run ++ plainRuns p (column + run.length) rest

def doubled (cs : List Char) : List Char :=
  cs.flatMap fun c => if c == '\'' then ['\'', '\''] else [c]

/-- Line ends inside quotes: one more than there are, and then the indentation. -/
def indentedEnds (p : Place) (run : List Char) : List Char :=
  (if run.head? == some '\n' then ['\n'] else []) ++ run ++ List.replicate p.indent ' '

def singleRuns (p : Place) (first : Bool) (column : Nat) : List (List Char) → List Char
  | [] => []
  | run :: rest =>
      if isFold p column run && !first && !rest.isEmpty then
        p.newline ++ singleRuns p false p.indent rest
      else if run.any isBreak then indentedEnds p run ++ singleRuns p false p.indent rest
      else
        let written := doubled run
        written ++ singleRuns p false (column + written.length) rest

def escapeNames : List (Char × Char) :=
  [('\x00', '0'), ('\x07', 'a'), ('\x08', 'b'), ('\t', 't'), ('\n', 'n'), ('\x0b', 'v'),
    ('\x0c', 'f'), ('\r', 'r'), ('\x1b', 'e'), ('"', '"'), ('\\', '\\'), ('\u0085', 'N'),
    ('\u00a0', '_'), ('\u2028', 'L'), ('\u2029', 'P')]

def staysInDouble (c : Char) : Bool :=
  c != '"' && c != '\\' && !isBreak c && !needsEscape c

def upperHex (width n : Nat) : List Char :=
  (hexDigits width n).map Char.toUpper

def escapeText (c : Char) : List Char :=
  let n := c.toNat
  match escapeNames.lookup c with
  | some name => ['\\', name]
  | none =>
      if n ≤ 0xff then '\\' :: 'x' :: upperHex 2 n
      else if n ≤ 0xffff then '\\' :: 'u' :: upperHex 4 n
      else '\\' :: 'U' :: upperHex 8 n

/-- The characters between double quotes.  A blank that follows the end of a line is escaped. -/
def doubleChars (p : Place) (first afterBlank : Bool) (column : Nat) : List Char → List Char
  | [] => []
  | c :: cs =>
      if !staysInDouble c then
        let written := escapeText c
        written ++ doubleChars p false false (column + written.length) cs
      else if isFold p column [c] && !afterBlank && !first && !cs.isEmpty then
        let mark := if cs.head? == some ' ' then ['\\'] else []
        p.newline ++ mark ++ doubleChars p false true (p.indent + mark.length) cs
      else c :: doubleChars p false (c == ' ') (column + 1) cs

/-! ## Scalars -/

/-- A text that starts at a column. -/
def textAt (p : Place) (column : Nat) (s : String) : List Char :=
  let cs := s.toList
  match quoting s with
  | .plain => plainRuns p column (runs cs)
  | .single => '\'' :: singleRuns p true (column + 1) (runs cs) ++ ['\'']
  | .double => '"' :: doubleChars p true false (column + 1) cs ++ ['"']

/-- Scalars and empty collections; complex numbers have no form. -/
def scalarAt (p : Place) (column : Nat) : Value → List Char
  | .null | .complex _ _ => ['n', 'u', 'l', 'l']
  | .bool b => (if b then "true" else "false").toList
  | .int i => (toString i).toList
  | .real x => (number.write x).toList
  | .text s => textAt p column s
  | .list _ => ['[', ']']
  | .record _ => ['{', '}']

/-! ## Collections -/

def blanks (n : Nat) : List Char :=
  List.replicate n ' '

/-- A key that its colon follows at once: one line of at most 128 bytes. -/
def isSimpleKey (s : String) : Bool :=
  !s.toList.any isBreak && s.utf8ByteSize ≤ 128

mutual

/-- What follows the key of an entry whose key starts at the column `indent`. -/
def afterKey (indent column : Nat) : Value → List Char
  | .list (v :: vs) => '\n' :: writeItems indent false (v :: vs)
  | .record (f :: fs) => '\n' :: writeEntries (indent + 2) false (f :: fs)
  | v => ' ' :: scalarAt ⟨indent + 2, true⟩ (column + 1) v ++ ['\n']

/-- What follows a mark that is alone at the column `indent`. -/
def afterMark (indent : Nat) : Value → List Char
  | .list (v :: vs) => ' ' :: writeItems (indent + 2) true (v :: vs)
  | .record (f :: fs) => ' ' :: writeEntries (indent + 2) true (f :: fs)
  | v => ' ' :: scalarAt ⟨indent + 2, true⟩ (indent + 2) v ++ ['\n']

/-- The first item may follow on a line that has begun. -/
def writeItems (indent : Nat) (begun : Bool) : List Value → List Char
  | [] => []
  | v :: vs =>
      (if begun then [] else blanks indent) ++ '-' :: afterMark indent v ++
        writeItems indent false vs

def writeEntries (indent : Nat) (begun : Bool) : List (String × Value) → List Char
  | [] => []
  | (key, v) :: rest =>
      let entry :=
        if isSimpleKey key then
          let name := textAt ⟨indent + 2, false⟩ indent key
          name ++ ':' :: afterKey indent (indent + name.length + 1) v
        else
          let name := textAt ⟨indent + 2, true⟩ (indent + 2) key
          ['?', ' '] ++ name ++ '\n' :: blanks indent ++ ':' :: afterMark indent v
      (if begun then [] else blanks indent) ++ entry ++ writeEntries indent false rest

end

/-- A document of entries. -/
def write (fields : List (String × Value)) : String :=
  match fields with
  | [] => "\x7b\x7d\n"
  | _ => String.ofList (writeEntries 0 false fields)

end OptimalAssignment.Yaml

import OptimalAssignment.Yaml.Token.Name
import OptimalAssignment.Yaml.Token.Scalar

/-!
# Reading tokens

A collection in block style starts with the first key or dash in a column further in than that of
the collection around it, and ends before the first token in a column further out.  Whether a token
is a key is only known at the colon behind it, so the place of a token that may be a key is
remembered.
-/

namespace OptimalAssignment.Yaml

/-- A token that may turn out to be the start of a key. -/
structure Candidate where
  /-- The number of tokens in front. -/
  place : Nat
  line : Nat
  col : Nat
  /-- At the column of a block collection there may only be a key. -/
  required : Bool

/-- A key is on one line and has at most 1024 characters. -/
def Candidate.isStale (k : Candidate) (s : Source) : Bool :=
  k.line < s.line || k.col + 1024 < s.col

structure Lexer where
  source : Source
  /-- The tokens so far, the last one first. -/
  done : List Token
  /-- The columns of the open block collections, the innermost first. -/
  columns : List Nat
  candidate : Option Candidate
  /-- The candidates around the open flow collections. -/
  outer : List (Option Candidate)
  keyAllowed : Bool

namespace Lexer

def start (s : Source) : Lexer :=
  { source := s, done := [], columns := [], candidate := none, outer := [], keyAllowed := true }

def inFlow (l : Lexer) : Bool :=
  !l.outer.isEmpty

/-- The first column inside the innermost block collection. -/
def floor (l : Lexer) : Nat :=
  match l.columns with
  | [] => 0
  | col :: _ => col + 1

def emit (l : Lexer) (t : Token) : Lexer :=
  { l with done := t :: l.done }

/-! ## Candidates -/

/-- What has become of a candidate that is no key. -/
def dropIf (p : Candidate → Bool) : Option Candidate → Option (Option Candidate)
  | some k => if p k then if k.required then none else some none else some (some k)
  | none => some none

def dropCandidate (l : Lexer) : Option Lexer :=
  (dropIf (fun _ => true) l.candidate).map fun k => { l with candidate := k }

def dropStale (l : Lexer) : Option Lexer := do
  let k ← dropIf (·.isStale l.source) l.candidate
  let ks ← l.outer.mapM (dropIf (·.isStale l.source))
  return { l with candidate := k, outer := ks }

/-- The next token may be a key, where keys are allowed. -/
def mayBeKey (l : Lexer) : Option Lexer :=
  if l.keyAllowed then do
    let l ← l.dropCandidate
    let required := !l.inFlow && l.columns.head? == some l.source.col
    return { l with candidate := some ⟨l.done.length, l.source.line, l.source.col, required⟩ }
  else some l

/-! ## Columns -/

/-- Opens a block collection in front of the last `behind` tokens if the column is further in. -/
def indent (l : Lexer) (col : Nat) (t : Token) (behind : Nat) : Lexer :=
  if !l.inFlow && l.floor ≤ col then
    { l with columns := col :: l.columns, done := l.done.insertIdx behind t }
  else l

/-- How many block collections end before a column. -/
def ending (col : Nat) (columns : List Nat) : Nat :=
  (columns.takeWhile (col < ·)).length

def close (l : Lexer) (n : Nat) : Lexer :=
  { l with columns := l.columns.drop n, done := List.replicate n .blockEnd ++ l.done }

def dedent (l : Lexer) : Lexer :=
  if l.inFlow then l else l.close (ending l.source.col l.columns)

/-- Ends all block collections. -/
def dedentAll (l : Lexer) : Lexer :=
  if l.inFlow then l else l.close l.columns.length

/-! ## Marks -/

/-- A mark of so many characters, behind which a key may or may not start. -/
def mark (l : Lexer) (t : Token) (width : Nat) (keyAllowed : Bool) : Lexer :=
  { l.emit t with source := l.source.drop width, keyAllowed := keyAllowed }

def boundary (l : Lexer) (t : Token) : Option Lexer := do
  let l ← l.dedentAll.dropCandidate
  return l.mark t 3 false

def openFlow (l : Lexer) (t : Token) : Option Lexer := do
  let l ← l.mayBeKey
  return { l with outer := l.candidate :: l.outer, candidate := none }.mark t 1 true

def closeFlow (l : Lexer) (t : Token) : Option Lexer := do
  let l ← l.dropCandidate
  let l := match l.outer with
    | k :: ks => { l with candidate := k, outer := ks }
    | [] => l
  return l.mark t 1 false

def separator (l : Lexer) : Option Lexer := do
  return (← l.dropCandidate).mark .separator 1 true

/-- A dash or a question mark, which start an item or a key where a key may start. -/
def entry (l : Lexer) (t collection : Token) (keyAllowed : Bool) : Option Lexer := do
  if !l.inFlow && !l.keyAllowed then none
  else
    let l ← (l.indent l.source.col collection 0).dropCandidate
    return l.mark t 1 keyAllowed

/-- A colon, after a key or alone. -/
def colon (l : Lexer) : Option Lexer :=
  match l.candidate with
  | some k =>
      let behind := l.done.length - k.place
      let keyed := { l with candidate := none, done := l.done.insertIdx behind .key }
      some ((keyed.indent k.col .blockMapping (behind + 1)).mark .value 1 false)
  | none =>
      if !l.inFlow && !l.keyAllowed then none
      else some ((l.indent l.source.col .blockMapping 0).mark .value 1 (!l.inFlow))

/-! ## Names and scalars -/

/-- A token that may be a key or a part of one. -/
def word (l : Lexer) (read : Source → Option (Token × Source)) : Option Lexer := do
  let l ← l.mayBeKey
  let (t, s) ← read l.source
  return { l.emit t with source := s, keyAllowed := false }

def anchor (l : Lexer) (t : String → Token) : Option Lexer :=
  l.word fun s => (anchorName (s.drop 1)).map fun (name, rest) => (t name, rest)

def quotedScalar (l : Lexer) (double : Bool) : Option Lexer :=
  l.word fun s =>
    (quoted double s.chars.length (s.drop 1)).map fun (text, rest) =>
      (.scalar false (String.ofList text), rest)

/-- After a plain scalar that ends on a later line, a key may start. -/
def plainScalar (l : Lexer) : Option Lexer := do
  let l ← l.mayBeKey
  let p ← plain l.inFlow l.floor (l.source.chars.length + 1) l.source
  return { l.emit (.scalar true (String.ofList p.text)) with
    source := p.rest, keyAllowed := p.crossed }

def blockScalar (l : Lexer) (folds : Bool) : Option Lexer := do
  let l ← l.dropCandidate
  let (text, s) ← block folds l.floor (l.source.drop 1)
  return { l.emit (.scalar false (String.ofList text)) with source := s, keyAllowed := true }

def directive (l : Lexer) : Option Lexer := do
  let l ← l.dedentAll.dropCandidate
  let (t, s) ← Yaml.directive (l.source.drop 1)
  return { l.emit t with source := s, keyAllowed := false }

/-! ## Documents -/

/-- Skips blanks, comments and ends of lines.  In block style a key may start on a new line; where
one may start, tabs are no blanks. -/
def skipGap (flow : Bool) : Bool → Bool → Nat → Nat → List Char → Bool × Source
  | inComment, keyAllowed, line, col, c :: cs =>
      if isBreak c then skipGap flow false (keyAllowed || !flow) (line + 1) 0 cs
      else if inComment || c == ' ' || (c == '\t' && (flow || !keyAllowed)) then
        skipGap flow inComment keyAllowed line (col + 1) cs
      else if c == '#' then skipGap flow true keyAllowed line (col + 1) cs
      else (keyAllowed, ⟨line, col, c :: cs⟩)
  | _, keyAllowed, line, col, [] => (keyAllowed, ⟨line, col, []⟩)

/-- Goes to the next token, which may end collections. -/
def advance (l : Lexer) : Option Lexer := do
  let s := l.source
  let (keyAllowed, t) := skipGap l.inFlow false l.keyAllowed s.line s.col s.chars
  return (← { l with source := t, keyAllowed := keyAllowed }.dropStale).dedent

/-- The token that starts with a character. -/
def token (l : Lexer) (c : Char) (cs : List Char) : Option Lexer :=
  let flow := l.inFlow
  let alone := standsAlone cs
  if l.source.col == 0 && c == '%' then l.directive
  else if l.source.atBoundary then l.boundary (if c == '-' then .documentStart else .documentEnd)
  else match c with
  | '[' => l.openFlow .flowSequence
  | '\x7b' => l.openFlow .flowMapping
  | ']' => l.closeFlow .flowSequenceEnd
  | '\x7d' => l.closeFlow .flowMappingEnd
  | ',' => l.separator
  | '*' => l.anchor .alias
  | '&' => l.anchor .anchor
  | '!' => l.word (tag flow)
  | '\'' => l.quotedScalar false
  | '"' => l.quotedScalar true
  | _ =>
      if c == '-' && alone then l.entry .item .blockSequence true
      else if c == '?' && (flow || alone) then l.entry .key .blockMapping (!flow)
      else if c == ':' && (flow || alone) then l.colon
      else if (c == '|' || c == '>') && !flow then l.blockScalar (c == '>')
      else if startsPlain flow (c :: cs) then l.plainScalar
      else none

/-- The end of the document ends every open block collection. -/
def finish (l : Lexer) : Option (List Token) :=
  l.dedentAll.dropCandidate.map fun l => l.done.reverse

/-- Every token takes at least one character. -/
def run : Nat → Lexer → Option (List Token)
  | 0, _ => none
  | fuel + 1, l => do
      let l ← l.advance
      match l.source.chars with
      | [] => l.finish
      | c :: cs => run fuel (← l.token c cs)

end Lexer

/-- The tokens of a document. -/
def tokens? (text : String) : Option (List Token) :=
  if text.toList.all isAllowed then
    Lexer.run (text.length + 2) (.start (.ofText text))
  else none

end OptimalAssignment.Yaml
